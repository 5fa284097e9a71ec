import LegoTrain.Boot.Parser

/-!
# Which headers are accepted

What `blsp_boot_parse_bootheader` should accept is stated for the CPU whose magic code the
header has, and compared with what it does.

* `AcceptsRight` : the accepted headers, and what is recorded of them;
* `acceptsRight_of_cpu0`, `acceptsRight_of_noCpu`, `acceptsRight_cpu1_iff` : headers of CPU 0
  and of no CPU are treated right, one of CPU 1 only when it is refused by the rules of both;
* `acceptsRight_iff` : the three together.
-/

namespace Boot

open ByteMem SoftCrc Checked BootHeader

/-- The CPU whose magic code the header has. -/
def magicCpu (header : BootHeader) : Option ℕ :=
  if magicCode header = bflbBoot2Cpu0Magic then some 0
  else if magicCode header = bflbBoot2Cpu1Magic then some 1
  else none

/-- The header is right for an image of CPU `i`. -/
structure Accepted (g : Globals) (header : BootHeader) (i : ℕ) : Prop where
  crc : crc32 header = bflbSoftCrc32 (read header 0 (bootHeaderConfigSize - 4)) ∨
    crcIgnore header = 1 ∧ crc32 header = bflbBoot2DeadbeefVal
  load : notLoadInBoot header = 0
  encrypt : g.efuseCfg.encrypted i ≠ 0 → encryptType header ≠ 0
  sign : g.efuseCfg.sign i = header.sign
  len : imgLen header ≠ 0

/-- The hash of an image of CPU `i` may be ignored: after a wake-up from hibernation, in
manufacturing, or since an unsigned header asks for it. -/
def MayIgnoreHash (g : Globals) (header : BootHeader) (i : ℕ) : Prop :=
  hbnExempt g ∨ g.userHashIgnored ≠ 0 ∨
    hashIgnore header = 1 ∧ hashWord header = bflbBoot2DeadbeefVal ∧ g.efuseCfg.sign i = 0

/-- The parser succeeds with the headers that are right for the CPU of their magic code; it
records that CPU, and that the hash is ignored only when it may be. -/
def AcceptsRight (g : Globals) (header : BootHeader) (s : BootState) : Prop :=
  Post (blspBootParseBootheader g header) s
    (fun _ s' => ∃ i, magicCpu header = some i ∧ Accepted g header i ∧ s'.cfg.cpuType = i ∧
      (s'.cfg.hashIgnore ≠ 0 → MayIgnoreHash g header i))
    (fun _ _ => ∀ i, magicCpu header = some i → ¬ Accepted g header i)

variable {g : Globals} {header : BootHeader}

theorem crcPass_iff : crcPass header = true ↔
    crc32 header = bflbSoftCrc32 (read header 0 (bootHeaderConfigSize - 4)) ∨
      crcIgnore header = 1 ∧ crc32 header = bflbBoot2DeadbeefVal := by
  unfold crcPass
  split
  · rename_i hign
    simp [hign]
  · rename_i hign
    simp [hign]

/-- What the parser asks of a header with a magic code: to be right for CPU 0. -/
theorem headerOk_iff : HeaderOk g header ↔ (magicCpu header).isSome ∧ Accepted g header 0 := by
  have hmagic : (magicCpu header).isSome ↔
      magicCode header = bflbBoot2Cpu0Magic ∨ magicCode header = bflbBoot2Cpu1Magic := by
    unfold magicCpu
    split
    · rename_i h0
      simp [h0]
    · split
      · rename_i h1
        simp [h1]
      · rename_i h0 h1
        simp [h0, h1]
  constructor
  · rintro ⟨hcrc, hload, hm, henc, hsign, hlen⟩
    exact ⟨hmagic.2 hm, crcPass_iff.1 hcrc, hload, henc, hsign, hlen⟩
  · rintro ⟨hm, hcrc, hload, henc, hsign, hlen⟩
    exact ⟨crcPass_iff.2 hcrc, hload, hmagic.1 hm, henc, hsign, hlen⟩

theorem mayIgnoreHash_of_hashIgnoreOf {i : ℕ} (h : hashIgnoreOf g header i ≠ 0) :
    MayIgnoreHash g header i := by
  unfold hashIgnoreOf at h
  split at h
  · rename_i huser
    exact .inr (.inl huser)
  split at h
  · rename_i hexempt
    exact .inl hexempt
  split at h
  · exact absurd rfl h
  · rename_i hasked
    have hbit : hashIgnore header < 2 := bitField_lt _ 17 1
    have hone : hashIgnore header = 1 := by omega
    rw [not_or, not_and, not_not, not_not] at hasked
    exact .inr (.inr ⟨hone, hasked.1 hone, hasked.2⟩)

/-- Two statements about one program hold of one outcome. -/
theorem acceptsRight_cases {s : BootState} (h : AcceptsRight g header s) :
    (HeaderOk g header → ∃ i, magicCpu header = some i ∧ Accepted g header i ∧ i = 0) ∧
      (¬ HeaderOk g header → ∀ i, magicCpu header = some i → ¬ Accepted g header i) := by
  have hcode := blspBootParseBootheader_cases g header s
  unfold AcceptsRight at h
  cases hx : blspBootParseBootheader g header s with
  | ok a s' =>
    obtain ⟨hok, rfl⟩ := hcode.of_ok hx
    obtain ⟨i, hi, hacc, hcpu, -⟩ := h.of_ok hx
    exact ⟨fun _ => ⟨i, hi, hacc, hcpu.symm⟩, fun hno => absurd hok hno⟩
  | error e s' =>
    exact ⟨fun hok => absurd hok (hcode.of_error hx).1, fun _ => h.of_error hx⟩

/-- A header of CPU 0 is treated right. -/
theorem acceptsRight_of_cpu0 (s : BootState) (hcpu : magicCpu header = some 0) :
    AcceptsRight g header s := by
  refine (blspBootParseBootheader_cases g header s).mono ?_ ?_
  · rintro - s' ⟨hok, rfl⟩
    exact ⟨0, hcpu, (headerOk_iff.1 hok).2, rfl, mayIgnoreHash_of_hashIgnoreOf⟩
  · rintro e s' ⟨hno, -⟩ i hi hacc
    obtain rfl := Option.some.inj (hcpu.symm.trans hi)
    exact hno (headerOk_iff.2 ⟨by rw [hcpu]; rfl, hacc⟩)

/-- A header without a magic code is refused, as it should be. -/
theorem acceptsRight_of_noCpu (s : BootState) (hcpu : magicCpu header = none) :
    AcceptsRight g header s := by
  refine (blspBootParseBootheader_cases g header s).mono ?_ ?_
  · rintro - s' ⟨hok, -⟩
    have hsome := (headerOk_iff.1 hok).1
    rw [hcpu] at hsome
    cases hsome
  · rintro e s' - i hi
    rw [hcpu] at hi
    cases hi

/-- A header of CPU 1 is judged by the rules for CPU 0, and recorded as one of CPU 0. -/
theorem acceptsRight_cpu1_iff (s : BootState) (hcpu : magicCpu header = some 1) :
    AcceptsRight g header s ↔ ¬ Accepted g header 0 ∧ ¬ Accepted g header 1 := by
  have hok : HeaderOk g header ↔ Accepted g header 0 := by
    rw [headerOk_iff, hcpu]
    simp
  constructor
  · intro h
    obtain ⟨hpass, hrefuse⟩ := acceptsRight_cases h
    have h0 : ¬ Accepted g header 0 := by
      intro hacc
      obtain ⟨i, hi, -, rfl⟩ := hpass (hok.2 hacc)
      rw [hcpu] at hi
      cases hi
    exact ⟨h0, hrefuse (fun h => h0 (hok.1 h)) 1 hcpu⟩
  · rintro ⟨h0, h1⟩
    refine (blspBootParseBootheader_cases g header s).mono ?_ ?_
    · rintro - s' ⟨hpass, -⟩
      exact absurd (hok.1 hpass) h0
    · rintro e s' - i hi
      obtain rfl := Option.some.inj (hcpu.symm.trans hi)
      exact h1

theorem magicCpu_eq_one : magicCpu header = some 1 ↔ magicCode header = bflbBoot2Cpu1Magic := by
  unfold magicCpu
  split
  · rename_i h0
    rw [h0]
    decide
  · split
    · rename_i h1
      simp [h1]
    · rename_i h1
      simp [h1]

/-- Headers are treated right unless they have the magic code of CPU 1 and meet the rules for
one of the two CPUs. -/
theorem acceptsRight_iff (g : Globals) (header : BootHeader) (s : BootState) :
    AcceptsRight g header s ↔
      (magicCode header = bflbBoot2Cpu1Magic → ¬ Accepted g header 0 ∧ ¬ Accepted g header 1) := by
  cases hcpu : magicCpu header with
  | none =>
    have hne : ¬ magicCode header = bflbBoot2Cpu1Magic := by
      rw [← magicCpu_eq_one, hcpu]
      simp
    exact iff_of_true (acceptsRight_of_noCpu s hcpu) fun h => absurd h hne
  | some i =>
    by_cases h1 : magicCode header = bflbBoot2Cpu1Magic
    · rw [acceptsRight_cpu1_iff s (magicCpu_eq_one.2 h1)]
      simp [h1]
    · have h0 : magicCpu header = some 0 := by
        unfold magicCpu at hcpu ⊢
        rw [if_neg h1] at hcpu ⊢
        split at hcpu
        · rename_i h0
          rw [if_pos h0]
        · cases hcpu
      exact iff_of_true (acceptsRight_of_cpu0 s h0) fun h => absurd h h1

/-- An image of 16 bytes for CPU 1 whose header has its CRC ignored. -/
def cpu1Header : BootHeader :=
  write (write (write (write (fun _ => 0) 0 bflbBoot2Cpu1Magic) 116 (leBytes 4 (1 <<< 16)))
    120 (leBytes 4 16)) 172 (leBytes 4 bflbBoot2DeadbeefVal)

/-- A chip whose CPU 1 takes signed images only. -/
def signedCpu1 : Globals where
  efuseCfg := ⟨fun _ => 0, fun i => if i = 1 then 1 else 0, 0, [], []⟩
  psMode := 0
  userHashIgnored := 0

/-- The unsigned image for CPU 1 is taken, as one for CPU 0. -/
theorem accepts_wrong :
    ¬ ∀ (g : Globals) (header : BootHeader) (s : BootState), AcceptsRight g header s := by
  intro h
  have hacc : Accepted signedCpu1 cpu1Header 0 :=
    ⟨.inr (by decide), by decide, fun hne => absurd rfl hne, by decide, by decide⟩
  have hright : AcceptsRight signedCpu1 cpu1Header ⟨.zero, fun _ => 0, []⟩ := h _ _ _
  have hrefused := (acceptsRight_cpu1_iff _ (by decide)).1 hright
  exact hrefused.1 hacc

end Boot
