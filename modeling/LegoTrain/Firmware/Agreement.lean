import LegoTrain.Firmware.HeaderLayout
import LegoTrain.Firmware.UpgradeScript

/-!
# The app and the script write one header

`getBootHeader` and `add_boot_header` have the same tables of fields, and differ in three
ways: the app shifts `sign` together with `encrypt_type`, it takes a decimal number from
`2 ^ 31` on for 0, and it cuts a number off where the script raises an exception.

* `addBootHeader_eq` : what the script writes, as the header of the app's model;
* `getBootHeader_append_iff` : when both write the same bytes.
-/

namespace Firmware

open ByteMem SoftCrc Layout

/-! ## The domain -/

/-- The decimal numbers are in range for the width in which they are written. -/
structure DecInRange (v : Key → ℕ) : Prop where
  field : ∀ f ∈ ktFields, f.radix = .dec → v f.key < 256 ^ f.width
  bits : ∀ p ∈ bootCfgParts, radixOf p.key = .dec → v p.key < 2 ^ p.bits

/-- The hexadecimal numbers are in range for the width in which they are written. -/
structure HexInRange (v : Key → ℕ) : Prop where
  field : ∀ f ∈ ktFields, f.radix = .hex → v f.key < 256 ^ f.width
  cacheWayDisable : v .cacheWayDisable < 2 ^ 20

theorem HexInRange.fits {v : Key → ℕ} (h : HexInRange v) (hdec : DecInRange v) :
    ∀ f ∈ ktFields, v f.key < 256 ^ f.width := by
  intro f hf
  cases hr : f.radix with
  | hex => exact h.field f hf hr
  | dec => exact hdec.field f hf hr

theorem dec_key_cases : ∀ k, radixOf k = .dec → k = .bootentry ∨
    (∃ f ∈ ktFields, f.radix = .dec ∧ f.width ≤ 2 ∧ f.key = k) ∨
    ∃ p ∈ bootCfgParts, p.bits ≤ 13 ∧ p.key = k := by
  decide +kernel

/-- Only `bootentry` can be too large for an `Int`. -/
theorem ktValues_eq {v : Key → ℕ} (hdec : DecInRange v) (hentry : v .bootentry < 2 ^ 31) :
    ktValues v = v := by
  refine ktValues_eq_self fun k hk => ?_
  rcases dec_key_cases k hk with rfl | ⟨f, hf, hr, hw, rfl⟩ | ⟨p, hp, hb, rfl⟩
  · exact hentry
  · calc v f.key < 256 ^ f.width := hdec.field f hf hr
      _ ≤ 256 ^ 2 := Nat.pow_le_pow_right (by decide) hw
      _ < 2 ^ 31 := by decide
  · calc v p.key < 2 ^ p.bits := hdec.bits p hp hk
      _ ≤ 2 ^ 13 := Nat.pow_le_pow_right (by decide) hb
      _ < 2 ^ 31 := by decide

/-! ## The boot configuration -/

theorem shiftLeft_lt {x lo bits n : ℕ} (h : x < 2 ^ bits) (hn : lo + bits ≤ n) :
    x <<< lo < 2 ^ n := by
  rw [Nat.shiftLeft_eq]
  calc x * 2 ^ lo < 2 ^ bits * 2 ^ lo := Nat.mul_lt_mul_of_pos_right h (Nat.two_pow_pos lo)
    _ = 2 ^ (lo + bits) := by rw [← Nat.pow_add, Nat.add_comm]
    _ ≤ 2 ^ n := Nat.pow_le_pow_right (by decide) hn

/-- The word of the script has 32 bits when `cache_way_disable` has 20. -/
theorem pyWord_lt_iff {v : Key → ℕ} (hdec : DecInRange v) :
    pyWord v < 2 ^ 32 ↔ v .cacheWayDisable < 2 ^ 20 := by
  have hbits : ∀ p ∈ bootCfgParts, radixOf p.key = .dec → p.lo + p.bits ≤ 32 →
      v p.key <<< p.lo < 2 ^ 32 :=
    fun p hp hr hle => shiftLeft_lt (hdec.bits p hp hr) hle
  constructor
  · intro h
    have hle : v .cacheWayDisable <<< 12 ≤ pyWord v :=
      (((Nat.right_le_or.trans Nat.left_le_or).trans Nat.left_le_or).trans Nat.left_le_or)
    rw [Nat.shiftLeft_eq] at hle
    omega
  · intro h
    have hsign : v .sign < 2 ^ 32 := hbits ⟨.sign, 0, 2⟩ (by decide) rfl (by decide)
    refine Nat.or_lt_two_pow (Nat.or_lt_two_pow (Nat.or_lt_two_pow (Nat.or_lt_two_pow
      (Nat.or_lt_two_pow (Nat.or_lt_two_pow (Nat.or_lt_two_pow (Nat.or_lt_two_pow (Nat.or_lt_two_pow
      (Nat.or_lt_two_pow hsign ?_) ?_) ?_) ?_) ?_) ?_) (shiftLeft_lt h (by decide))) ?_) ?_) ?_
    · exact hbits ⟨.encryptType, 2, 2⟩ (by decide) rfl (by decide)
    · exact hbits ⟨.keySel, 4, 4⟩ (by decide) rfl (by decide)
    · exact hbits ⟨.noSegment, 8, 1⟩ (by decide) rfl (by decide)
    · exact hbits ⟨.cacheEnable, 9, 1⟩ (by decide) rfl (by decide)
    · exact hbits ⟨.notloadInBootrom, 10, 1⟩ (by decide) rfl (by decide)
    · exact hbits ⟨.aesRegionLock, 11, 1⟩ (by decide) rfl (by decide)
    · exact hbits ⟨.crcIgnore, 16, 1⟩ (by decide) rfl (by decide)
    · exact hbits ⟨.hashIgnore, 17, 2⟩ (by decide) rfl (by decide)
    · exact hbits ⟨.boot2Enable, 19, 13⟩ (by decide) rfl (by decide)

theorem or_mod_four (x y : ℕ) : (x ||| y) % 4 = x % 4 ||| y % 4 := Nat.or_mod_two_pow (n := 2)

theorem shiftLeft_mod_four (x : ℕ) {n : ℕ} (h : 2 ≤ n) : x <<< n % 4 = 0 := by
  rw [Nat.shiftLeft_eq]
  exact Nat.mod_eq_zero_of_dvd ((Nat.pow_dvd_pow 2 h).mul_left x)

/-- The lowest two bits of the script's word are `sign`. -/
theorem pyWord_mod (v : Key → ℕ) : pyWord v % 4 = v .sign % 4 := by
  unfold pyWord
  simp (disch := decide) only [or_mod_four, shiftLeft_mod_four, Nat.or_zero]

/-- The lowest two bits of the app's word are zero. -/
theorem ktWord_mod (v : Key → ℕ) : ktWord v % 4 = 0 := by
  unfold ktWord
  simp (disch := decide) only [or_mod_four, shiftLeft_mod_four, Nat.or_zero]

/-- Without `sign` the words are one. -/
theorem ktWord_eq_pyWord {v : Key → ℕ} (hsign : v .sign = 0) : ktWord v = pyWord v := by
  rw [ktWord, pyWord, hsign, Nat.zero_or, Nat.zero_or]

/-! ## The header of the script -/

theorem bind_eq_of_some {α β : Type} {x : Option α} {f : α → Option β} {a : α} {r : Option β}
    (hx : x = some a) (hf : f a = r) : (x >>= f) = r := by
  rw [hx]
  exact hf

theorem pySeal_eq (magic cfg : List UInt8) : pySeal magic cfg = some (ktSeal magic cfg) := by
  rw [pySeal, pyCrc32_eq]
  rfl

theorem pyFinish_eq (data header : List UInt8) :
    pyFinish data header = some (padTo 0x1000 0xFF (header ++ getCrc32 header) ++ data) := by
  rw [pyFinish, pyCrc32_eq, Option.map_some]
  rfl

theorem pyHeaderFields_eq : pyHeaderFields = ktHeaderFields := rfl

theorem pyFlashFields_eq : pyFlashFields = ktFlashFields := rfl

theorem pyClockFields_eq : pyClockFields = ktClockFields := rfl

theorem pyImageFields_eq : pyImageFields = ktImageFields := rfl

theorem pyPtFields_eq : pyPtFields = ktPtFields := rfl

section

variable (sha256 : List UInt8 → List UInt8)

/-- **The header of the script**, when every number is in range. -/
theorem addBootHeader_eq {config : Config} {v : Key → ℕ} (h : Denotes config v)
    (hfit : ∀ f ∈ ktFields, v f.key < 256 ^ f.width) (hword : pyWord v < 2 ^ 32)
    {data : List UInt8} (hlen : data.length < 2 ^ 32) :
    addBootHeader sha256 data config = some (sealedHeader sha256 (pyWord v) v data ++ data) := by
  have hfield : ∀ f ∈ ktFields, pyField config f = some (fieldBytes v f) := by
    intro f hf
    rw [pyField_eq h (ktFields_spec f hf).1, if_pos (hfit f hf)]
  have hemit : ∀ l : List Field, (∀ f ∈ l, f ∈ ktFields) →
      emit (pyField config) l = some (l.flatMap (fieldBytes v)) :=
    fun l hl => emit_eq_some fun f hf => hfield f (hl f hf)
  refine bind_eq_of_some (hemit pyHeaderFields (by decide +kernel)) ?_
  refine bind_eq_of_some (hemit pyFlashFields (by decide +kernel)) ?_
  refine bind_eq_of_some (hfield ⟨.flashcfgMagicCode, .hex, 4⟩ (by decide +kernel)) ?_
  refine bind_eq_of_some (pySeal_eq _ _) ?_
  refine bind_eq_of_some (hemit pyClockFields (by decide +kernel)) ?_
  refine bind_eq_of_some (hfield ⟨.clkcfgMagicCode, .hex, 4⟩ (by decide +kernel)) ?_
  refine bind_eq_of_some (pySeal_eq _ _) ?_
  refine bind_eq_of_some (pyBootCfg_eq h) ?_
  refine bind_eq_of_some (pyToBytes_word hword) ?_
  refine bind_eq_of_some (pyToBytes_word hlen) ?_
  refine bind_eq_of_some (hemit pyImageFields (by decide +kernel)) ?_
  refine bind_eq_of_some (hemit pyPtFields (by decide +kernel)) ?_
  rw [pyFinish_eq, pyHeaderFields_eq, pyFlashFields_eq, pyClockFields_eq, pyImageFields_eq,
    pyPtFields_eq, sealedHeader, headerOf, ktAssemble, intToBytes_ofNat (Nat.le_refl 4)]
  simp only [List.append_assoc]

/-- When the script writes a header, every field and the boot configuration fit. -/
theorem addBootHeader_isSome {config : Config} {data out : List UInt8}
    (h : addBootHeader sha256 data config = some out) :
    (∀ f ∈ ktFields, pyField config f ≠ none) ∧ (pyBootCfg config).bind (pyToBytes · 4) ≠ none := by
  obtain ⟨b1, h1, h⟩ := Option.bind_eq_some_iff.1 h
  obtain ⟨b2, h2, h⟩ := Option.bind_eq_some_iff.1 h
  obtain ⟨b3, h3, h⟩ := Option.bind_eq_some_iff.1 h
  obtain ⟨_, -, h⟩ := Option.bind_eq_some_iff.1 h
  obtain ⟨b4, h4, h⟩ := Option.bind_eq_some_iff.1 h
  obtain ⟨b5, h5, h⟩ := Option.bind_eq_some_iff.1 h
  obtain ⟨_, -, h⟩ := Option.bind_eq_some_iff.1 h
  obtain ⟨word, hword, h⟩ := Option.bind_eq_some_iff.1 h
  obtain ⟨b6, h6, h⟩ := Option.bind_eq_some_iff.1 h
  obtain ⟨_, -, h⟩ := Option.bind_eq_some_iff.1 h
  obtain ⟨b7, h7, h⟩ := Option.bind_eq_some_iff.1 h
  obtain ⟨b8, h8, -⟩ := Option.bind_eq_some_iff.1 h
  constructor
  · intro f hf
    simp only [ktFields, List.mem_append, List.mem_cons] at hf
    rcases hf with hf | hf | rfl | hf | rfl | hf | hf
    · exact ne_none_of_emit h1 hf
    · exact ne_none_of_emit h2 hf
    · rw [h3]
      exact Option.some_ne_none b3
    · exact ne_none_of_emit h4 hf
    · rw [h5]
      exact Option.some_ne_none b5
    · exact ne_none_of_emit h7 hf
    · exact ne_none_of_emit h8 hf
  · rw [hword, Option.bind_some, h6]
    exact Option.some_ne_none b6

/-- A number that does not fit stops the script. -/
theorem addBootHeader_fits {config : Config} {v : Key → ℕ} (h : Denotes config v)
    (hdec : DecInRange v) {data out : List UInt8}
    (hout : addBootHeader sha256 data config = some out) : HexInRange v := by
  obtain ⟨hfields, hword⟩ := addBootHeader_isSome sha256 hout
  constructor
  · intro f hf _
    by_contra hbig
    refine hfields f hf ?_
    rw [pyField_eq h (ktFields_spec f hf).1, if_neg hbig]
  · by_contra hbig
    refine hword ?_
    have hlt : ¬ pyWord v < 256 ^ 4 := fun hlt => hbig ((pyWord_lt_iff hdec).1 hlt)
    rw [pyBootCfg_eq h, Option.bind_some, pyToBytes_ofNat, if_neg hlt]

/-! ## The agreement -/

variable {sha256}

/-- Equal headers have equal slots. -/
theorem slot_eq_of_sealedHeader_eq (hsha : ∀ bs, (sha256 bs).length = 32) {w w' : ℕ}
    {v v' : Key → ℕ} {data : List UInt8}
    (h : sealedHeader sha256 w v data = sealedHeader sha256 w' v' data) {s : Slot}
    (hs : s ∈ slots.map Prod.fst) :
    slotBytes sha256 w v data s = slotBytes sha256 w' v' data s := by
  rw [sealedHeader_eq_append hsha, sealedHeader_eq_append hsha] at h
  have hencode := List.append_cancel_right h
  rw [← member_encode (fits_slots hsha w v data) hs [], hencode,
    member_encode (fits_slots hsha w' v' data) hs []]

/-- Equal bytes need numbers in range, no `sign`, and a `bootentry` that is an `Int`. -/
theorem agree_of_eq (hsha : ∀ bs, (sha256 bs).length = 32) {config : Config} {v : Key → ℕ}
    (h : Denotes config v) (hdec : DecInRange v) {data : List UInt8}
    (hlen : data.length < 2 ^ 32)
    (heq : some (sealedHeader sha256 (ktWord (ktValues v)) (ktValues v) data ++ data) =
      addBootHeader sha256 data config) :
    HexInRange v ∧ v .sign = 0 ∧ v .bootentry < 2 ^ 31 := by
  have hfit := addBootHeader_fits sha256 h hdec heq.symm
  rw [addBootHeader_eq sha256 h (hfit.fits hdec) ((pyWord_lt_iff hdec).2 hfit.cacheWayDisable) hlen]
    at heq
  have hheader := List.append_cancel_right (Option.some.inj heq)
  refine ⟨hfit, ?_, ?_⟩
  · -- the word of the app has no `sign`
    have hslot : leBytes 4 (ktWord (ktValues v)) = leBytes 4 (pyWord v) :=
      slot_eq_of_sealedHeader_eq hsha hheader (s := .bootCfg) (by decide +kernel)
    have hmod := congrArg leNat hslot
    rw [leNat_leBytes, leNat_leBytes] at hmod
    have hkt := ktWord_mod (ktValues v)
    have hpy := pyWord_mod v
    have hsign : v .sign < 4 := hdec.bits ⟨.sign, 0, 2⟩ (by decide) rfl
    omega
  · -- the app writes 0 for a number that is too large
    have hslot : leBytes 4 (intValue (v .bootentry)) = leBytes 4 (v .bootentry) :=
      slot_eq_of_sealedHeader_eq hsha hheader (s := .field ⟨.bootentry, .dec, 4⟩)
        (by decide +kernel)
    have hval := congrArg leNat hslot
    have hentry : v .bootentry < 256 ^ 4 := hdec.field ⟨.bootentry, .dec, 4⟩ (by decide) rfl
    rw [leNat_leBytes, leNat_leBytes_of_lt hentry, intValue] at hval
    by_contra hbig
    rw [if_neg hbig] at hval
    omega

/-- **The two generators write the same bytes exactly when** every hexadecimal number fits the
width of its field, the image is not marked as signed, and `bootentry` is an `Int`. -/
theorem getBootHeader_append_iff (hsha : ∀ bs, (sha256 bs).length = 32) {config : Config}
    {v : Key → ℕ} (h : Denotes config v) (hhex : ∀ k, radixOf k = .hex → v k < 2 ^ 31)
    (hdec : DecInRange v) (firmware : List UInt8)
    (hlen : (padMod 0x10 0 firmware).length < 2 ^ 31) :
    (getBootHeader sha256 (padMod 0x10 0 firmware) config).map (· ++ padMod 0x10 0 firmware) =
        addBootHeader sha256 (padMod 0x10 0 firmware) config ↔
      HexInRange v ∧ v .sign = 0 ∧ v .bootentry < 2 ^ 31 := by
  generalize padMod 0x10 0 firmware = data at hlen ⊢
  have hlen : data.length < 2 ^ 32 := by omega
  rw [getBootHeader_eq sha256 h hhex, Option.map_some]
  constructor
  · exact agree_of_eq hsha h hdec hlen
  · rintro ⟨hfit, hsign, hentry⟩
    rw [addBootHeader_eq sha256 h (hfit.fits hdec)
      ((pyWord_lt_iff hdec).2 hfit.cacheWayDisable) hlen, ktValues_eq hdec hentry,
      ktWord_eq_pyWord hsign]

end

theorem padMod_nil {m : ℕ} (hm : 0 < m) (b : UInt8) : padMod m b [] = [] := by
  rw [padMod_eq hm, List.length_nil, Nat.zero_mod, Nat.sub_zero, Nat.mod_self]
  rfl

theorem shipped_decInRange : DecInRange shipped := ⟨by decide +kernel, by decide +kernel⟩

theorem shipped_hexInRange : HexInRange shipped := ⟨by decide +kernel, by decide⟩

/-- On the shipped configuration the generators agree. -/
theorem getBootHeader_append_shipped :
    (getBootHeader sha256Empty (padMod 0x10 0 []) (configOf shipped)).map
        (· ++ padMod 0x10 0 []) =
      addBootHeader sha256Empty (padMod 0x10 0 []) (configOf shipped) :=
  (getBootHeader_append_iff (fun _ => rfl) (denotes_configOf shipped)
    (fun k _ => shipped_lt k) shipped_decInRange [] (by rw [padMod_nil (by decide)]; decide)).2
    ⟨shipped_hexInRange, rfl, by decide⟩

/-- The shipped configuration with the image marked as signed. -/
def signed : Key → ℕ := Function.update shipped .sign 1

theorem signed_decInRange : DecInRange signed := ⟨by decide +kernel, by decide +kernel⟩

/-- With `sign = 1` the generators write different headers. -/
theorem getBootHeader_append_signed : Denotes (configOf signed) signed ∧
    (∀ k, radixOf k = .hex → signed k < 2 ^ 31) ∧ DecInRange signed ∧
    (getBootHeader sha256Empty [] (configOf signed)).map (· ++ []) ≠
      addBootHeader sha256Empty [] (configOf signed) := by
  have hhex : ∀ k, radixOf k = .hex → signed k < 2 ^ 31 := by
    intro k hk
    have hne : k ≠ .sign := by
      rintro rfl
      cases hk
    rw [signed, Function.update_of_ne hne]
    exact shipped_lt k
  refine ⟨denotes_configOf signed, hhex, signed_decInRange, fun heq => ?_⟩
  rw [getBootHeader_eq sha256Empty (denotes_configOf signed) hhex, Option.map_some] at heq
  have h := agree_of_eq (fun _ => rfl) (denotes_configOf signed) signed_decInRange (by decide) heq
  exact absurd h.2.1 (by decide)

end Firmware
