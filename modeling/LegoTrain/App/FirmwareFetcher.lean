import Mathlib.Data.List.Infix
import Mathlib.Data.List.Nodup
import LegoTrain.Lib.Memo
import LegoTrain.Lib.Transition

/-!
# The firmware fetcher of the app

`FirmwareFetcherImpl.kt` in front of `RemoteDataSourceImpl.kt`: the list of the firmwares of
the product in hand and the firmware files are cached.  The list is not cached with the
device it is for, and the files are cached by their names only, while the repository that
they come from is chosen by the device name.

* `fetchAvailableFirmwares`, `getFirmware` : the two operations, with the outcome of a request
  as an argument;
* `FetcherSystem` : the fetcher with what the remote source has served so far;
* `firmwares_coherent`, `firmware_coherent_iff` : a list, and a file, is one that was served for
  the right device, in every run, for a call that is not `Stale`, respectively `StaleFile`;
* `firmwares_incoherent`, `firmware_incoherent` : runs that do.
-/

namespace App

open Memo Transition

/-! ## The remote source -/

/-- `"lego_train_"`. -/
def legoTrainName : List Char := ['l', 'e', 'g', 'o', '_', 't', 'r', 'a', 'i', 'n', '_']

/-- `"robot_bl702"`. -/
def robotBl702Name : List Char := ['r', 'o', 'b', 'o', 't', '_', 'b', 'l', '7', '0', '2']

/-- `host_path` of `fetchFirmwareData` and of `fetchAvailableFirmwares`. -/
def hostPath (devName : List Char) : String :=
  if legoTrainName <:+: devName then
    "raw.githubusercontent.com/tomrodinger/lego_train/master/firmware_releases/"
  else if robotBl702Name <:+: devName then
    "raw.githubusercontent.com/tomrodinger/line_following_robot/master/firmware_releases/"
  else ""

/-- What comes of a call that returns a `Result`. -/
inductive Outcome (α : Type)
  | success (value : α)
  | failure
  /-- the request throws, and so does the call -/
  | exception
  deriving DecidableEq, Repr

/-! ## The fetcher -/

/-- `FirmwareFetcherImpl`. -/
structure FirmwareFetcher (Product : Type) where
  availableFirmwaresCache : Option Product
  firmwareDataCache : List Char → Option (List UInt8)
  preDevName : List Char

/-- The two names are names of one family. -/
def SameFamily (preDevName devName : List Char) : Prop :=
  (legoTrainName <:+: preDevName ∧ legoTrainName <:+: devName) ∨
    (robotBl702Name <:+: preDevName ∧ robotBl702Name <:+: devName)

instance (preDevName devName : List Char) : Decidable (SameFamily preDevName devName) :=
  inferInstanceAs (Decidable (_ ∨ _))

variable {Product : Type}

/-- The list that `fetchAvailableFirmwares` returns without a request. -/
def FirmwareFetcher.cachedList (f : FirmwareFetcher Product) (devName : List Char) :
    Option Product :=
  if SameFamily f.preDevName devName then f.availableFirmwaresCache else none

/-- `fetchAvailableFirmwares`; `remote` is the outcome of the request, if one is made. -/
def fetchAvailableFirmwares (f : FirmwareFetcher Product) (devName : List Char)
    (remote : Outcome Product) : FirmwareFetcher Product × Outcome Product :=
  match f.cachedList devName with
  | some product => (f, .success product)
  | none =>
    match remote with
    | .success product =>
      ({ f with preDevName := devName, availableFirmwaresCache := some product }, .success product)
    | .failure => ({ f with preDevName := devName }, .failure)
    | .exception => ({ f with preDevName := devName }, .exception)

/-- `getFirmware`, with `fetchFirmware`; `remote` is the outcome of the request, if one is
made. -/
def getFirmware (f : FirmwareFetcher Product) (name : List Char) (remote : Outcome (List UInt8)) :
    FirmwareFetcher Product × Outcome (List UInt8) :=
  match f.firmwareDataCache name with
  | some cache => (f, .success cache)
  | none =>
    match remote with
    | .success data =>
      ({ f with firmwareDataCache := Function.update f.firmwareDataCache name (some data) },
        .success data)
    | res => (f, res)

/-! ## The fetcher and what it was served -/

/-- The fetcher, and a history of it that the code does not keep. -/
structure FetcherSystem (Product : Type) where
  fetcher : FirmwareFetcher Product
  /-- the lists that the remote source has served, with the device name it was asked with, the
  newest first -/
  lists : List (Answer (List Char) Unit Product)
  /-- the files that it has served, with the repository they came from -/
  files : List (Answer String (List Char) (List UInt8))
  /-- the device passed to `fetchAvailableFirmwares` last -/
  device : Option (List Char)

/-- A fresh `FirmwareFetcherImpl`. -/
def FetcherSystem.init : FetcherSystem Product := ⟨⟨none, fun _ => none, []⟩, [], [], none⟩

/-- A call, with the outcome of its request. -/
inductive FetchCall (Product : Type)
  | fetchAvailableFirmwares (devName : List Char) (remote : Outcome Product)
  | getFirmware (name : List Char) (remote : Outcome (List UInt8))

/-- The list that the remote source serves in a call. -/
def servedList (f : FirmwareFetcher Product) (devName : List Char) :
    Outcome Product → List (Answer (List Char) Unit Product)
  | .success product => if f.cachedList devName = none then [⟨devName, (), product⟩] else []
  | _ => []

/-- The file that the remote source serves in a call. -/
def servedFile (f : FirmwareFetcher Product) (name : List Char) :
    Outcome (List UInt8) → List (Answer String (List Char) (List UInt8))
  | .success data =>
    if f.firmwareDataCache name = none then [⟨hostPath f.preDevName, name, data⟩] else []
  | _ => []

/-- The state after a call. -/
def fetchCall (s : FetcherSystem Product) : FetchCall Product → FetcherSystem Product
  | .fetchAvailableFirmwares devName remote =>
    { s with
      fetcher := (fetchAvailableFirmwares s.fetcher devName remote).1
      lists := servedList s.fetcher devName remote ++ s.lists
      device := some devName }
  | .getFirmware name remote =>
    { s with
      fetcher := (getFirmware s.fetcher name remote).1
      files := servedFile s.fetcher name remote ++ s.files }

/-- Every call can be made in every state. -/
def fetchStep (s : FetcherSystem Product) (c : FetchCall Product) :
    Option (FetcherSystem Product) :=
  some (fetchCall s c)

/-! ## What is in the caches -/

/-- Each cache holds what was served last. -/
structure CachesReflect (s : FetcherSystem Product) : Prop where
  list : Reflects (fun _ : Unit => s.fetcher.availableFirmwaresCache) s.lists
  file : Reflects s.fetcher.firmwareDataCache s.files

theorem cachesReflect_init : CachesReflect (FetcherSystem.init : FetcherSystem Product) :=
  ⟨reflects_nil, reflects_nil⟩

/-- What a call for a list does to the two caches and what it returns. -/
theorem fetchAvailableFirmwares_cases (f : FirmwareFetcher Product) (devName : List Char)
    (remote : Outcome Product) :
    (∃ product, f.cachedList devName = some product ∧
      fetchAvailableFirmwares f devName remote = (f, .success product) ∧
      servedList f devName remote = []) ∨
    (∃ product, f.cachedList devName = none ∧
      fetchAvailableFirmwares f devName remote =
        ({ f with preDevName := devName, availableFirmwaresCache := some product },
          .success product) ∧
      servedList f devName remote = [⟨devName, (), product⟩]) ∨
    (∃ res, (∀ product, res ≠ .success product) ∧
      fetchAvailableFirmwares f devName remote = ({ f with preDevName := devName }, res) ∧
      servedList f devName remote = []) := by
  unfold fetchAvailableFirmwares servedList
  cases hcache : f.cachedList devName with
  | some product =>
    refine .inl ⟨product, rfl, rfl, ?_⟩
    cases remote <;> simp
  | none =>
    cases remote with
    | success product => exact .inr (.inl ⟨product, rfl, rfl, by simp⟩)
    | failure => exact .inr (.inr ⟨.failure, by simp, rfl, rfl⟩)
    | exception => exact .inr (.inr ⟨.exception, by simp, rfl, rfl⟩)

/-- What a call for a file does to the cache and what it returns. -/
theorem getFirmware_cases (f : FirmwareFetcher Product) (name : List Char)
    (remote : Outcome (List UInt8)) :
    (∃ cache, f.firmwareDataCache name = some cache ∧
      getFirmware f name remote = (f, .success cache) ∧ servedFile f name remote = []) ∨
    (∃ data, f.firmwareDataCache name = none ∧
      getFirmware f name remote =
        ({ f with firmwareDataCache := Function.update f.firmwareDataCache name (some data) },
          .success data) ∧
      servedFile f name remote = [⟨hostPath f.preDevName, name, data⟩]) ∨
    (∃ res, (∀ data, res ≠ .success data) ∧ getFirmware f name remote = (f, res) ∧
      servedFile f name remote = []) := by
  unfold getFirmware servedFile
  cases hcache : f.firmwareDataCache name with
  | some cache =>
    refine .inl ⟨cache, rfl, rfl, ?_⟩
    cases remote <;> simp
  | none =>
    cases remote with
    | success data => exact .inr (.inl ⟨data, rfl, rfl, by simp⟩)
    | failure => exact .inr (.inr ⟨.failure, by simp, rfl, rfl⟩)
    | exception => exact .inr (.inr ⟨.exception, by simp, rfl, rfl⟩)

/-- A call keeps the caches in line with what was served. -/
theorem cachesReflect_call {s : FetcherSystem Product} (h : CachesReflect s)
    (c : FetchCall Product) : CachesReflect (fetchCall s c) := by
  cases c with
  | fetchAvailableFirmwares devName remote =>
    rcases fetchAvailableFirmwares_cases s.fetcher devName remote with
      ⟨product, -, hcall, hserved⟩ | ⟨product, -, hcall, hserved⟩ | ⟨res, -, hcall, hserved⟩
    · simpa [fetchCall, hcall, hserved] using ⟨h.list, h.file⟩
    · simp only [fetchCall, hcall, hserved, List.singleton_append]
      have hlist := h.list.insert ⟨devName, (), product⟩
      refine ⟨fun k => ?_, h.file⟩
      simpa using hlist k
    · simpa [fetchCall, hcall, hserved] using ⟨h.list, h.file⟩
  | getFirmware name remote =>
    rcases getFirmware_cases s.fetcher name remote with
      ⟨cache, -, hcall, hserved⟩ | ⟨data, -, hcall, hserved⟩ | ⟨res, -, hcall, hserved⟩
    · simpa [fetchCall, hcall, hserved] using ⟨h.list, h.file⟩
    · simp only [fetchCall, hcall, hserved, List.singleton_append]
      exact ⟨h.list, h.file.insert ⟨hostPath s.fetcher.preDevName, name, data⟩⟩
    · simpa [fetchCall, hcall, hserved] using ⟨h.list, h.file⟩

theorem cachesReflect_run {calls : List (FetchCall Product)} {s : FetcherSystem Product}
    (hrun : run fetchStep FetcherSystem.init calls = some s) : CachesReflect s := by
  refine run_inv' ?_ cachesReflect_init hrun
  intro s c s' h hs
  cases hs
  exact cachesReflect_call h c

/-! ## The lists -/

/-- The call is for the family of the last request, and the last list that was served is one of
the other family: that request has failed. -/
def Stale (s : FetcherSystem Product) (devName : List Char) : Prop :=
  SameFamily s.fetcher.preDevName devName ∧
    ∃ a, newest s.lists () = some a ∧ ¬ SameFamily a.ctx devName

/-- **The list cache is coherent**: in every run, a call that is not made for a family right
after a request for it has failed over the list of the other family returns only lists that
were served for the family of its device. -/
theorem firmwares_coherent {calls : List (FetchCall Product)} {s : FetcherSystem Product}
    (hrun : run fetchStep FetcherSystem.init calls = some s) {devName : List Char}
    (hname : SameFamily devName devName) (hstale : ¬ Stale s devName) (remote : Outcome Product)
    {product : Product}
    (hres : (fetchAvailableFirmwares s.fetcher devName remote).2 = .success product) :
    ∃ a ∈ (fetchCall s (.fetchAvailableFirmwares devName remote)).lists,
      SameFamily a.ctx devName ∧ a.value = product := by
  have hinv := cachesReflect_run hrun
  rcases fetchAvailableFirmwares_cases s.fetcher devName remote with
    ⟨product', hcache, hcall, hserved⟩ | ⟨product', -, hcall, hserved⟩ | ⟨res, hne, hcall, -⟩
  · rw [hcall] at hres
    cases hres
    rw [FirmwareFetcher.cachedList] at hcache
    split at hcache
    · rename_i hsame
      obtain ⟨a, hnew, hmem, -, hvalue⟩ := hinv.list.answer (k := ()) hcache
      refine ⟨a, ?_, ?_, hvalue⟩
      · simpa [fetchCall, hserved] using hmem
      · by_contra hctx
        exact hstale ⟨hsame, a, hnew, hctx⟩
    · cases hcache
  · rw [hcall] at hres
    cases hres
    refine ⟨⟨devName, (), product⟩, ?_, hname, rfl⟩
    simp [fetchCall, hserved]
  · rw [hcall] at hres
    exact absurd hres (hne product)

/-- A train's name and a robot's name. -/
def trainName : List Char := legoTrainName ++ ['1']

/-- A train is asked for twice. -/
theorem firmwares_coherent_train :
    ∃ a ∈ (fetchCall (fetchCall (FetcherSystem.init : FetcherSystem ℕ)
        (.fetchAvailableFirmwares trainName (.success 1)))
        (.fetchAvailableFirmwares trainName .failure)).lists,
      SameFamily a.ctx trainName ∧ a.value = 1 := by
  have hrun : run fetchStep FetcherSystem.init
      [.fetchAvailableFirmwares trainName (.success 1)] = some (fetchCall FetcherSystem.init
        (.fetchAvailableFirmwares trainName (.success 1))) := rfl
  refine firmwares_coherent hrun (by decide) ?_ .failure (by decide)
  rintro ⟨-, a, ha, hctx⟩
  cases ha
  exact hctx (by decide)

/-- The list of the trains is cached, the request for the list of the robots fails, and the
next call for a robot returns the list of the trains. -/
theorem firmwares_incoherent :
    ∃ s : FetcherSystem ℕ, run fetchStep FetcherSystem.init
        [.fetchAvailableFirmwares trainName (.success 1),
          .fetchAvailableFirmwares robotBl702Name .failure] = some s ∧
      (fetchAvailableFirmwares s.fetcher robotBl702Name .failure).2 = .success 1 ∧
      ¬ ∃ a ∈ (fetchCall s (.fetchAvailableFirmwares robotBl702Name .failure)).lists,
        SameFamily a.ctx robotBl702Name ∧ a.value = 1 := by
  refine ⟨_, rfl, by decide, ?_⟩
  decide

/-! ## The files -/

/-- The repository of the device passed to `fetchAvailableFirmwares` last. -/
def FetcherSystem.repository (s : FetcherSystem Product) : Option String := s.device.map hostPath

/-- The file has come from another repository than that of the device passed last, or it has
not been served yet and would be requested from another. -/
def StaleFile (s : FetcherSystem Product) (name : List Char) : Prop :=
  match newest s.files name with
  | some a => some a.ctx ≠ s.repository
  | none => some (hostPath s.fetcher.preDevName) ≠ s.repository

/-- A file that is in the cache is never requested again: a name is served at most once. -/
theorem files_nodup_call {s : FetcherSystem Product} (hinv : CachesReflect s)
    (h : (s.files.map Answer.key).Nodup) (c : FetchCall Product) :
    ((fetchCall s c).files.map Answer.key).Nodup := by
  cases c with
  | fetchAvailableFirmwares devName remote => exact h
  | getFirmware name remote =>
    rcases getFirmware_cases s.fetcher name remote with
      ⟨cache, -, -, hserved⟩ | ⟨data, hcache, -, hserved⟩ | ⟨res, -, -, hserved⟩
    · simpa [fetchCall, hserved] using h
    · have hnew := hinv.file.newest_eq_none hcache
      simp only [fetchCall, hserved, List.singleton_append, List.map_cons, List.nodup_cons]
      refine ⟨?_, h⟩
      intro hmem
      obtain ⟨a, ha, hkey⟩ := List.mem_map.1 hmem
      exact newest_ne_none ha hkey hnew
    · simpa [fetchCall, hserved] using h

theorem files_nodup_run {calls : List (FetchCall Product)} {s : FetcherSystem Product}
    (hrun : run fetchStep FetcherSystem.init calls = some s) :
    (s.files.map Answer.key).Nodup := by
  refine (run_inv' (P := fun s => CachesReflect s ∧ (s.files.map Answer.key).Nodup) ?_
    ⟨cachesReflect_init, List.nodup_nil⟩ hrun).2
  rintro s c s' ⟨hinv, hnodup⟩ hs
  cases hs
  exact ⟨cachesReflect_call hinv c, files_nodup_call hinv hnodup c⟩

/-- **When the file cache is coherent**: in every run, a file that a call returns is one that
was served under its name from the repository of the device passed last exactly when the name
has not come from another one. -/
theorem firmware_coherent_iff {calls : List (FetchCall Product)} {s : FetcherSystem Product}
    (hrun : run fetchStep FetcherSystem.init calls = some s) {name : List Char}
    {remote : Outcome (List UInt8)} {data : List UInt8}
    (hres : (getFirmware s.fetcher name remote).2 = .success data) :
    (∃ a ∈ (fetchCall s (.getFirmware name remote)).files,
      some a.ctx = s.repository ∧ a.key = name ∧ a.value = data) ↔ ¬ StaleFile s name := by
  have hinv := cachesReflect_run hrun
  rw [StaleFile]
  rcases getFirmware_cases s.fetcher name remote with
    ⟨cache, hcache, hcall, hserved⟩ | ⟨data', hcache, hcall, hserved⟩ | ⟨res, hne, hcall, -⟩
  · rw [hcall] at hres
    cases hres
    obtain ⟨b, hnew, hb, hkey, hvalue⟩ := hinv.file.answer hcache
    rw [hnew]
    simp only [fetchCall, hserved, List.nil_append, not_not]
    constructor
    · rintro ⟨a, ha, hctx, hname, -⟩
      -- the name is served only once
      have hab : a = b :=
        List.inj_on_of_nodup_map (files_nodup_run hrun) ha hb (hname.trans hkey.symm)
      rwa [← hab]
    · intro hctx
      exact ⟨b, hb, hctx, hkey, hvalue⟩
  · rw [hcall] at hres
    cases hres
    have hnew := hinv.file.newest_eq_none hcache
    rw [hnew]
    simp only [fetchCall, hserved, List.singleton_append, not_not]
    constructor
    · rintro ⟨a, ha, hctx, hname, -⟩
      rcases List.mem_cons.1 ha with rfl | ha
      · exact hctx
      · exact absurd hnew (newest_ne_none ha hname)
    · intro hctx
      exact ⟨_, List.mem_cons_self, hctx, rfl, rfl⟩
  · rw [hcall] at hres
    exact absurd hres (hne data)

/-- The file of a train that is in hand. -/
theorem firmware_coherent_train :
    ∃ a ∈ (fetchCall (fetchCall (FetcherSystem.init : FetcherSystem ℕ)
        (.fetchAvailableFirmwares trainName .failure)) (.getFirmware [] (.success [1]))).files,
      some a.ctx = some (hostPath trainName) ∧ a.key = [] ∧ a.value = [1] := by
  have hrun : run fetchStep FetcherSystem.init [.fetchAvailableFirmwares trainName .failure] =
      some (fetchCall (FetcherSystem.init : FetcherSystem ℕ)
        (.fetchAvailableFirmwares trainName .failure)) := rfl
  have hres : (getFirmware (fetchCall (FetcherSystem.init : FetcherSystem ℕ)
      (.fetchAvailableFirmwares trainName .failure)).fetcher [] (.success [1])).2 =
      .success [1] := rfl
  refine (firmware_coherent_iff hrun hres).2 ?_
  intro hstale
  exact hstale rfl

/-- A file of the trains is cached, a robot is passed, and the file of the same name is that of
the trains. -/
theorem firmware_incoherent :
    ∃ s : FetcherSystem ℕ, run fetchStep FetcherSystem.init
        [.fetchAvailableFirmwares trainName (.success 1), .getFirmware [] (.success [1]),
          .fetchAvailableFirmwares robotBl702Name (.success 2)] = some s ∧
      (getFirmware s.fetcher [] (.success [2])).2 = .success [1] ∧
      ¬ ∃ a ∈ (fetchCall s (.getFirmware [] (.success [2]))).files,
        some a.ctx = s.repository ∧ a.key = [] ∧ a.value = [1] := by
  refine ⟨_, rfl, rfl, ?_⟩
  decide

end App
