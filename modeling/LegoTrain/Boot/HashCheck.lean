import LegoTrain.Boot.MainTask
import LegoTrain.Boot.SecureBoot
import LegoTrain.Partition.Slots

/-!
# The hash check and the manufacturing mode

A request for a manufacturing firmware sets `g_user_hash_ignored`, and nothing clears it.
As long as no such request has been found, a normal boot compares the hash of its image;
afterwards it does not.

* `normal_boot_hash` : the hash has been compared in every boot before which no request was
  found;
* `normal_boot_unchecked` : a normal boot after a request for a firmware that is not there.
-/

namespace Boot

open ByteMem Flash Partition Transition

/-- Without a request, a step leaves `g_user_hash_ignored` as it is. -/
theorem mainStep_userHashIgnored {env : MainEnv} {s s' : MainState} {faults : List Fault}
    (hno : ¬ (s.pc = .parse ∧ TakesMfg s)) (h : mainStep env s faults = some s') :
    s'.userHashIgnored = s.userHashIgnored := by
  rcases mainStep_cases h with ⟨hpc, hs'⟩ | ⟨-, hs'⟩
  · rcases parsePass_cases { s with dev := { s.dev with faults := faults } } with
      ⟨-, heq⟩ | ⟨hmfg, -⟩ | ⟨-, -, heq⟩
    · rw [hs', heq]
    · exact absurd ⟨hpc, hmfg⟩ hno
    · rw [hs', heq, finishNormal_userHashIgnored]
  · rw [hs']
    exact (bootPass_cases env s).2.1

theorem run_userHashIgnored {env : MainEnv} {s t : MainState} {es : List (List Fault)}
    (hno : Along (mainStep env) (fun s _ => ¬ (s.pc = .parse ∧ TakesMfg s)) s es)
    (hrun : run (mainStep env) s es = some t) (h0 : s.userHashIgnored = 0) :
    t.userHashIgnored = 0 := by
  refine run_inv (P := fun s => s.userHashIgnored = 0) ?_ h0 hno hrun
  intro s e s' h0 hno hstep
  rw [mainStep_userHashIgnored hno hstep, h0]

/-- The header asks for its hash to be ignored, on a device without signing. -/
def AsksIgnore (env : MainEnv) (header : BootHeader) : Prop :=
  header.hashIgnore = 1 ∧ header.hashWord = bflbBoot2DeadbeefVal ∧ env.efuseCfg.sign 0 = 0

/-- What `hash_ignore` is when nothing asks for it. -/
theorem hashIgnoreOf_eq_zero {g : Globals} {header : BootHeader} (huser : g.userHashIgnored = 0)
    (hexempt : ¬ hbnExempt g)
    (hasks : ¬ (header.hashIgnore = 1 ∧ header.hashWord = bflbBoot2DeadbeefVal ∧
      g.efuseCfg.sign 0 = 0)) :
    hashIgnoreOf g header 0 = 0 := by
  have hbit : header.hashIgnore < 2 := bitField_lt _ 17 1
  rw [hashIgnoreOf, if_neg (not_not_intro huser), if_neg hexempt]
  split
  · rfl
  · rename_i h
    by_cases hword : header.hashWord = bflbBoot2DeadbeefVal
    · by_cases hsign : g.efuseCfg.sign 0 = 0
      · have hne : header.hashIgnore ≠ 1 := fun hone => hasks ⟨hone, hword, hsign⟩
        omega
      · exact absurd (.inr hsign) h
    · have hne : header.hashIgnore ≠ 1 := fun hone => h (.inl ⟨hone, hword⟩)
      omega

/-- **The hash is compared.**  In every run of the boot loop in which no request for a
manufacturing firmware has been found, an image that becomes valid has the hash of its
header, unless the exemption after hibernation or the header itself lifts the check. -/
theorem normal_boot_hash {env : MainEnv} {flashCfg : SpiFlashCfg} {flash readBuf : Mem}
    {userFw : ℕ} {es : List (List Fault)} {faults : List Fault} {s s' : MainState}
    (hno : Along (mainStep env) (fun s _ => ¬ (s.pc = .parse ∧ TakesMfg s))
      (MainState.init flashCfg flash readBuf userFw) es)
    (hrun : run (mainStep env) (MainState.init flashCfg flash readBuf userFw) es = some s)
    (hpc : s.pc = .boot) (hstep : mainStep env s faults = some s')
    (hvalid : (s'.media.imgCfg 0).imgValid = 1) (hexempt : ¬ hbnExempt (env.globals s))
    (hasks : ¬ AsksIgnore env (headerAt s.dev.mem (bootHeaderAddr s 0))) :
    HashMatches env.sec s.dev.mem (bootHeaderAddr s 0)
      (u32 (bootHeaderAddr s 0 + bflbFwImgOffsetAfterHeader)) := by
  have huser : s.userHashIgnored = 0 := run_userHashIgnored hno hrun rfl
  have hs' : s' = bootPass env s := by
    rcases mainStep_cases hstep with ⟨hpc', -⟩ | ⟨-, heq⟩
    · rw [hpc] at hpc'
      cases hpc'
    · exact heq
  rw [hs', (bootPass_cases env s).1] at hvalid
  rcases blspMediabootMain_cases env.sec (env.globals s) env.build s.dev.mem (bootHeaderAddr s) 0
    s.media with ⟨⟨-, -, himg⟩, -, hv⟩ | ⟨-, hv, -⟩
  · rw [hvalid] at hv
    refine himg (fun hseg => ?_) (hashIgnoreOf_eq_zero huser hexempt hasks)
    rw [if_neg (not_not_intro hseg)] at hv
    cases hv
  · rw [hvalid] at hv
    cases hv

/-! ## A corrupt image after a request -/

/-- A header of CPU 0 for an image of one byte with the given hash, whose CRC is not to be
checked. -/
def plainHeader (hash : List UInt8) : List UInt8 :=
  bflbBoot2Cpu0Magic ++ List.replicate 112 0 ++ leBytes 4 0x10100 ++ leBytes 4 1 ++
    List.replicate 8 0 ++ hash ++ List.replicate 8 0 ++ leBytes 4 bflbBoot2DeadbeefVal

/-- The image `0x00` under such a header, in the slot at `0x2F000` of a table with one entry. -/
def plainFlash (hash : List UInt8) : Mem :=
  write (write (tableFlash firmwareOnly) 0x30000 [0]) 0x2F000 (plainHeader hash)

/-- A device without signing and encryption, in a normal boot. -/
def plainEnv : MainEnv where
  sec := strictSecEng
  efuseCfg := ⟨fun _ => 0, fun _ => 0, 0, [], []⟩
  psMode := 0
  build := ⟨2, 0x23000000⟩

instance (env : MainEnv) (header : BootHeader) : Decidable (AsksIgnore env header) :=
  inferInstanceAs (Decidable (_ ∧ _))

instance (sec : SecEng) (flash : Mem) (addr imgAddr : ℕ) :
    Decidable (HashMatches sec flash addr imgAddr) := inferInstanceAs (Decidable (_ = _))

/-- A firmware `abc` is asked for and not there; the normal boot that follows takes an image
with the wrong hash. -/
theorem normal_boot_unchecked :
    ∃ s, run (mainStep plainEnv) (MainState.init ⟨true, true⟩ (plainFlash (List.replicate 32 0))
        (fun _ => 0) 0x63626130) [[], [], []] = some s ∧
      ∃ s', mainStep plainEnv s [] = some s' ∧ s.pc = .boot ∧ s.mfgModeFlag = 0 ∧
        (s'.media.imgCfg 0).imgValid = 1 ∧ ¬ hbnExempt (plainEnv.globals s) ∧
        ¬ AsksIgnore plainEnv (headerAt s.dev.mem (bootHeaderAddr s 0)) ∧
        ¬ HashMatches plainEnv.sec s.dev.mem (bootHeaderAddr s 0)
          (u32 (bootHeaderAddr s 0 + bflbFwImgOffsetAfterHeader)) := by
  have hrun : ((run (mainStep plainEnv) (MainState.init ⟨true, true⟩
      (plainFlash (List.replicate 32 0)) (fun _ => 0) 0x63626130) [[], [], []]).any fun s =>
      (mainStep plainEnv s []).any fun s' => decide (s.pc = .boot ∧ s.mfgModeFlag = 0 ∧
        (s'.media.imgCfg 0).imgValid = 1 ∧ ¬ hbnExempt (plainEnv.globals s) ∧
        ¬ AsksIgnore plainEnv (headerAt s.dev.mem (bootHeaderAddr s 0)) ∧
        ¬ HashMatches plainEnv.sec s.dev.mem (bootHeaderAddr s 0)
          (u32 (bootHeaderAddr s 0 + bflbFwImgOffsetAfterHeader)))) = true := by
    decide +kernel
  obtain ⟨s, hs, hstep⟩ := (Option.any_eq_true _ _).1 hrun
  obtain ⟨s', hs', h⟩ := (Option.any_eq_true _ _).1 hstep
  exact ⟨s, hs, s', hs', of_decide_eq_true h⟩

/-- The theorem for a device that boots the image with the right hash. -/
theorem normal_boot_hash_oneByte :
    ∃ s, run (mainStep plainEnv) (MainState.init ⟨true, true⟩ (plainFlash zeroImgHash)
        (fun _ => 0) 0) [[]] = some s ∧
      HashMatches plainEnv.sec s.dev.mem (bootHeaderAddr s 0)
        (u32 (bootHeaderAddr s 0 + bflbFwImgOffsetAfterHeader)) := by
  have hrun : ((run (mainStep plainEnv) (MainState.init ⟨true, true⟩ (plainFlash zeroImgHash)
      (fun _ => 0) 0) [[]]).any fun s =>
      (mainStep plainEnv s []).any fun s' => decide (s.pc = .boot ∧
        (s'.media.imgCfg 0).imgValid = 1 ∧ ¬ hbnExempt (plainEnv.globals s) ∧
        ¬ AsksIgnore plainEnv (headerAt s.dev.mem (bootHeaderAddr s 0)))) = true := by
    decide +kernel
  have hname : (requestName (MainState.init ⟨true, true⟩ (plainFlash zeroImgHash)
      (fun _ => 0) 0)).getD 0 0 ≠ 0x30 := by
    decide +kernel
  obtain ⟨s, hs, hstep⟩ := (Option.any_eq_true _ _).1 hrun
  obtain ⟨s', hs', h⟩ := (Option.any_eq_true _ _).1 hstep
  obtain ⟨hpc, hvalid, hexempt, hasks⟩ := of_decide_eq_true h
  have hno : Along (mainStep plainEnv) (fun s _ => ¬ (s.pc = .parse ∧ TakesMfg s))
      (MainState.init ⟨true, true⟩ (plainFlash zeroImgHash) (fun _ => 0) 0) [[]] :=
    ⟨fun h => hname h.2.2, fun _ _ => trivial⟩
  exact ⟨s, hs, normal_boot_hash hno hs hpc hs' hvalid hexempt hasks⟩

end Boot
