import LegoTrain.Lib.FreeBlocks

/-!
# What a heap keeps of its bytes

What the two operations on a heap of blocks do to the live blocks, the free bytes, the regions,
the addresses and the list of the free blocks.

* `Taken.liveCells`, `Released.liveCells` : one live block more, or less, and the others as they
  were;
* `freeBytes_add_liveBytes`, `Taken.bytes`, `Released.bytes` : no byte is lost;
* `Taken.regionSizes`, `Released.regionSizes` : no byte goes to another region, and
  `Heap.exists_fits_of_noneLive` : once everything is given back, each region is one free block;
* `Taken.covered`, `Released.covered` : the cells stay where they were;
* `listedCells_absorb` : where a free block goes in the list.
-/

namespace FreeBlocks

variable {hdr e want slack a : ℕ} {c d : Cell} {cs cs' pre post : List Cell}

/-! ## Live blocks -/

/-- The live blocks. -/
def liveCells (cs : List Cell) : List Cell := cs.filter fun c => c.use = .live

@[simp] theorem liveCells_append : liveCells (cs ++ cs') = liveCells cs ++ liveCells cs' :=
  List.filter_append ..

theorem liveCells_cons_of_live (h : c.use = .live) : liveCells (c :: cs) = c :: liveCells cs := by
  simp [liveCells, h]

theorem liveCells_cons_of_not_live (h : c.use ≠ .live) : liveCells (c :: cs) = liveCells cs := by
  simp [liveCells, h]

theorem mem_liveCells : c ∈ liveCells cs ↔ c ∈ cs ∧ c.use = .live := by
  simp [liveCells]

theorem liveCells_absorb (h : c.use ≠ .live) : liveCells (absorb c post) = liveCells post := by
  cases post with
  | nil => exact liveCells_cons_of_not_live h
  | cons d ds =>
    cases hd : d.use with
    | free =>
      have hjoin : Cell.use { c with size := c.size + d.size } ≠ .live := h
      rw [absorb_free hd, liveCells_cons_of_not_live hjoin, liveCells_cons_of_not_live (by simp [hd])]
    | live => rw [absorb_live hd, liveCells_cons_of_not_live h]
    | mark listed =>
      rw [absorb_mark hd, liveCells_cons_of_not_live h, liveCells_cons_of_not_live (by simp),
        liveCells_cons_of_not_live (by simp [hd])]

/-- A block becomes live, with `want` bytes at least and `want + slack` at most. -/
theorem Taken.liveCells (h : Taken want slack cs a cs') :
    ∃ l r n, FreeBlocks.liveCells cs = l ++ r ∧
      FreeBlocks.liveCells cs' = l ++ ⟨a, n, .live⟩ :: r ∧ want ≤ n ∧ n ≤ want + slack := by
  cases h with
  | @whole pre post c hpre hc hs =>
    refine ⟨FreeBlocks.liveCells pre, FreeBlocks.liveCells post, c.size, ?_, ?_, hc.2, hs⟩
    · rw [liveCells_append, liveCells_cons_of_not_live (by simp [hc.1])]
    · rw [liveCells_append, liveCells_cons_of_live rfl]
  | @split pre post c hpre hc hs =>
    refine ⟨FreeBlocks.liveCells pre, FreeBlocks.liveCells post, want, ?_, ?_, le_rfl, by omega⟩
    · rw [liveCells_append, liveCells_cons_of_not_live (by simp [hc.1])]
    · rw [liveCells_append, liveCells_cons_of_live rfl, liveCells_absorb (by simp)]

/-- The block at the address is no longer live, and the others are as before. -/
theorem Released.liveCells (h : Released cs a cs') :
    ∃ l r n, FreeBlocks.liveCells cs = l ++ ⟨a, n, .live⟩ :: r ∧
      FreeBlocks.liveCells cs' = l ++ r := by
  cases h with
  | @plain pre post c hc hpre =>
    refine ⟨FreeBlocks.liveCells pre, FreeBlocks.liveCells post, c.size, ?_, ?_⟩
    · rw [liveCells_append, liveCells_cons_of_live hc, ← hc]
    · rw [liveCells_append, liveCells_absorb (by simp)]
  | @merged pre post p c hc hp =>
    refine ⟨FreeBlocks.liveCells pre, FreeBlocks.liveCells post, c.size, ?_, ?_⟩
    · rw [liveCells_append, liveCells_cons_of_not_live (by simp [hp]), liveCells_cons_of_live hc,
        ← hc]
    · rw [liveCells_append, liveCells_absorb (by simp [hp])]

/-! ## Free bytes -/

/-- The bytes of the free blocks. -/
def freeBytes (cs : List Cell) : ℕ := ((cs.filter fun c => c.use = .free).map Cell.size).sum

/-- The bytes of all blocks. -/
def bytes (cs : List Cell) : ℕ := (cs.map Cell.size).sum

@[simp] theorem bytes_append : bytes (cs ++ cs') = bytes cs + bytes cs' := by
  simp [bytes]

@[simp] theorem bytes_cons : bytes (c :: cs) = c.size + bytes cs := by
  simp [bytes]

@[simp] theorem freeBytes_append : freeBytes (cs ++ cs') = freeBytes cs + freeBytes cs' := by
  simp [freeBytes]

theorem bytes_absorb : bytes (absorb c post) = c.size + bytes post := by
  cases post with
  | nil => simp [absorb]
  | cons d ds =>
    cases hd : d.use with
    | free => rw [absorb_free hd, bytes_cons, bytes_cons, Nat.add_assoc]
    | live => rw [absorb_live hd, bytes_cons]
    | mark listed => rw [absorb_mark hd, bytes_cons, bytes_cons, bytes_cons]

theorem Taken.bytes (h : Taken want slack cs a cs') :
    FreeBlocks.bytes cs' = FreeBlocks.bytes cs := by
  cases h with
  | whole hpre hc hs => simp
  | split hpre hc hs =>
    have hle := hc.2
    simp only [bytes_append, bytes_cons, bytes_absorb]
    omega

theorem Released.bytes (h : Released cs a cs') : FreeBlocks.bytes cs' = FreeBlocks.bytes cs := by
  cases h with
  | plain hc hpre => simp [bytes_absorb]
  | merged hc hp => simp [bytes_absorb, Nat.add_assoc]

/-- Every byte of a block is free or live. -/
theorem freeBytes_add_liveBytes (h : ∀ c ∈ cs, Roomy hdr c) :
    freeBytes cs + FreeBlocks.bytes (liveCells cs) = FreeBlocks.bytes cs := by
  induction cs with
  | nil => rfl
  | cons c cs ih =>
    have ih := ih fun d hd => h d (List.mem_cons_of_mem _ hd)
    have hroom := h c List.mem_cons_self
    cases hc : c.use with
    | free =>
      rw [liveCells_cons_of_not_live (by simp [hc])]
      have hfree : freeBytes (c :: cs) = c.size + freeBytes cs := by simp [freeBytes, hc]
      rw [hfree, bytes_cons]
      omega
    | live =>
      rw [liveCells_cons_of_live hc]
      have hfree : freeBytes (c :: cs) = freeBytes cs := by simp [freeBytes, hc]
      rw [hfree, bytes_cons, bytes_cons]
      omega
    | mark listed =>
      rw [liveCells_cons_of_not_live (by simp [hc])]
      have hfree : freeBytes (c :: cs) = freeBytes cs := by simp [freeBytes, hc]
      have hzero : c.size = 0 := by simpa [Roomy, Cell.isMark, hc] using hroom
      rw [hfree, bytes_cons]
      omega

/-! ## Regions -/

/-- Add `n` to the first of some numbers. -/
def addToHead (n : ℕ) : List ℕ → List ℕ
  | [] => []
  | m :: ms => (n + m) :: ms

/-- The bytes of each region that ends in `cs`. -/
def regionSizes : List Cell → List ℕ
  | [] => []
  | c :: cs => if c.isMark then 0 :: regionSizes cs else addToHead c.size (regionSizes cs)

theorem addToHead_addToHead (m n : ℕ) (l : List ℕ) :
    addToHead m (addToHead n l) = addToHead (m + n) l := by
  cases l with
  | nil => rfl
  | cons k ks => simp [addToHead, Nat.add_assoc]

theorem regionSizes_of_mark (h : c.isMark = true) :
    regionSizes (c :: cs) = 0 :: regionSizes cs := by
  simp [regionSizes, h]

theorem regionSizes_of_block (h : c.isMark = false) :
    regionSizes (c :: cs) = addToHead c.size (regionSizes cs) := by
  simp [regionSizes, h]

theorem regionSizes_append_congr (h : regionSizes post = regionSizes cs) :
    regionSizes (pre ++ post) = regionSizes (pre ++ cs) := by
  induction pre with
  | nil => exact h
  | cons p pre ih => simp only [List.cons_append, regionSizes, ih]

theorem regionSizes_absorb (hc : c.use = .free) :
    regionSizes (absorb c post) = addToHead c.size (regionSizes post) := by
  have hblock : c.isMark = false := isMark_of_free hc
  cases post with
  | nil => exact regionSizes_of_block hblock
  | cons d ds =>
    cases hd : d.use with
    | free =>
      have hjoin : Cell.isMark { c with size := c.size + d.size } = false := hblock
      rw [absorb_free hd, regionSizes_of_block hjoin, regionSizes_of_block (isMark_of_free hd),
        addToHead_addToHead]
    | live => rw [absorb_live hd, regionSizes_of_block hblock]
    | mark listed =>
      have hm : d.isMark = true := by simp [Cell.isMark, hd]
      rw [absorb_mark hd, regionSizes_of_block hblock, regionSizes_of_mark hm,
        regionSizes_of_mark rfl]

theorem Taken.regionSizes (h : Taken want slack cs a cs') :
    FreeBlocks.regionSizes cs' = FreeBlocks.regionSizes cs := by
  cases h with
  | @whole pre post c hpre hc hs =>
    refine regionSizes_append_congr ?_
    rw [regionSizes_of_block rfl, regionSizes_of_block (isMark_of_free hc.1)]
  | @split pre post c hpre hc hs =>
    have hle := hc.2
    refine regionSizes_append_congr ?_
    rw [regionSizes_of_block rfl, regionSizes_absorb rfl, addToHead_addToHead,
      regionSizes_of_block (isMark_of_free hc.1)]
    dsimp only
    rw [Nat.add_sub_cancel' hle]

theorem Released.regionSizes (h : Released cs a cs') :
    FreeBlocks.regionSizes cs' = FreeBlocks.regionSizes cs := by
  cases h with
  | @plain pre post c hc hpre =>
    refine regionSizes_append_congr ?_
    rw [regionSizes_absorb rfl, regionSizes_of_block (isMark_of_live hc)]
  | @merged pre post p c hc hp =>
    refine regionSizes_append_congr ?_
    rw [regionSizes_absorb (by exact hp), regionSizes_of_block (isMark_of_free hp),
      regionSizes_of_block (isMark_of_live hc), addToHead_addToHead]

theorem addToHead_ne_nil {n : ℕ} {l : List ℕ} (h : l ≠ []) : addToHead n l ≠ [] := by
  cases l with
  | nil => exact absurd rfl h
  | cons m ms => exact List.cons_ne_nil _ _

theorem sum_addToHead {n : ℕ} {l : List ℕ} (h : l ≠ []) : (addToHead n l).sum = n + l.sum := by
  cases l with
  | nil => exact absurd rfl h
  | cons m ms => simp only [addToHead, List.sum_cons, Nat.add_assoc]

/-- A heap ends with a region. -/
theorem regionSizes_ne_nil (hm : d.isMark = true) : ∀ cs : List Cell,
    FreeBlocks.regionSizes (cs ++ [d]) ≠ []
  | [] => by simp [regionSizes_of_mark hm]
  | c :: cs => by
    have ih := regionSizes_ne_nil hm cs
    rw [List.cons_append]
    cases hc : c.isMark with
    | true => simp [regionSizes_of_mark hc]
    | false =>
      rw [regionSizes_of_block hc]
      exact addToHead_ne_nil ih

/-- The regions have all the bytes. -/
theorem sum_regionSizes (hm : d.isMark = true) : ∀ cs : List Cell,
    (∀ c ∈ cs ++ [d], Roomy hdr c) →
      (FreeBlocks.regionSizes (cs ++ [d])).sum = FreeBlocks.bytes (cs ++ [d])
  | [], h => by
    have hroom := h d (by simp)
    simp only [Roomy, hm, if_true] at hroom
    simp [regionSizes_of_mark hm, FreeBlocks.regionSizes, FreeBlocks.bytes, hroom]
  | c :: cs, h => by
    have ih := sum_regionSizes hm cs fun x hx => h x (List.mem_cons_of_mem _ hx)
    rw [List.cons_append, bytes_cons, ← ih]
    cases hc : c.isMark with
    | true =>
      have hroom := h c (by simp)
      simp only [Roomy, hc, if_true] at hroom
      rw [regionSizes_of_mark hc, List.sum_cons, hroom]
    | false => rw [regionSizes_of_block hc, sum_addToHead (regionSizes_ne_nil hm cs)]

theorem Heap.sum_regionSizes (h : Heap hdr e cs) :
    (FreeBlocks.regionSizes cs).sum = FreeBlocks.bytes cs := by
  obtain ⟨body, rfl⟩ := h.ended
  exact FreeBlocks.sum_regionSizes rfl body h.roomy

theorem not_fits_of_mark (h : c.isMark = true) : ¬ c.Fits want := by
  intro hf
  simp [isMark_of_free hf.1] at h

/-- Where nothing is live, each region is one free block, or empty. -/
theorem fits_iff_of_noneLive (hwant : 0 < want) :
    ∀ cs : List Cell, cs.IsChain Loose → (∀ c ∈ cs, c.use ≠ .live) →
      (∀ m ∈ cs.getLast?, m.isMark = true) →
      ((∃ c ∈ cs, c.Fits want) ↔ ∃ n ∈ FreeBlocks.regionSizes cs, want ≤ n)
  | [], _, _, _ => by simp [FreeBlocks.regionSizes]
  | c :: cs, hloose, hlive, hend => by
    cases hm : c.isMark with
    | true =>
      have hend' : ∀ m ∈ cs.getLast?, m.isMark = true := by
        cases cs with
        | nil => simp
        | cons d ds => exact hend
      have ih := fits_iff_of_noneLive hwant cs hloose.tail
        (fun d hd => hlive d (List.mem_cons_of_mem _ hd)) hend'
      have hwant' : ¬ want ≤ 0 := Nat.not_le.2 hwant
      rw [regionSizes_of_mark hm, List.exists_mem_cons_iff, List.exists_mem_cons_iff, ih]
      simp only [not_fits_of_mark hm, hwant', false_or]
    | false =>
      have hfree : c.use = .free :=
        (use_eq_free_or_live hm).resolve_right (hlive c List.mem_cons_self)
      cases cs with
      | nil => simpa [hm] using hend c
      | cons d ds =>
        -- behind a free block comes an end mark
        have hdm : d.isMark = true := by
          by_contra hblock
          rcases use_eq_free_or_live (Bool.not_eq_true _ ▸ hblock) with hd | hd
          · exact (List.isChain_cons_cons.1 hloose).1 hfree hd
          · exact hlive d (by simp) hd
        have hend' : ∀ m ∈ ds.getLast?, m.isMark = true := by
          cases ds with
          | nil => simp
          | cons x xs => exact hend
        have ih := fits_iff_of_noneLive hwant ds hloose.tail.tail
          (fun x hx => hlive x (by simp [hx])) hend'
        rw [regionSizes_of_block hm, regionSizes_of_mark hdm, addToHead, Nat.add_zero,
          List.exists_mem_cons_iff, List.exists_mem_cons_iff, List.exists_mem_cons_iff, ih]
        have hfits : c.Fits want ↔ want ≤ c.size := and_iff_right hfree
        simp only [not_fits_of_mark hdm, false_or, hfits]

/-- Once everything is given back, a block of `want` bytes can be taken exactly when a region has
as many. -/
theorem Heap.exists_fits_of_noneLive (h : Heap hdr e cs) (hlive : liveCells cs = [])
    (hwant : 0 < want) :
    (∃ c ∈ cs, c.Fits want) ↔ ∃ n ∈ FreeBlocks.regionSizes cs, want ≤ n := by
  refine fits_iff_of_noneLive hwant cs h.loose ?_ ?_
  · intro c hc huse
    have hmem := mem_liveCells.2 ⟨hc, huse⟩
    rw [hlive] at hmem
    exact absurd hmem List.not_mem_nil
  · obtain ⟨body, rfl⟩ := h.ended
    intro m hm
    rw [List.getLast?_concat, Option.mem_some_iff] at hm
    rw [← hm]
    rfl

/-! ## The bytes and the addresses of the cells -/

/-- The byte at `x` belongs to a cell. -/
def Covered (hdr : ℕ) (cs : List Cell) (x : ℕ) : Prop :=
  ∃ c ∈ cs, c.addr ≤ x ∧ x < c.addr + c.extent hdr

variable {x : ℕ}

theorem covered_append : Covered hdr (cs ++ cs') x ↔ Covered hdr cs x ∨ Covered hdr cs' x := by
  simp only [Covered, List.mem_append, or_and_right, exists_or]

theorem covered_cons :
    Covered hdr (c :: cs) x ↔ (c.addr ≤ x ∧ x < c.addr + c.extent hdr) ∨ Covered hdr cs x := by
  simp only [Covered, List.mem_cons, or_and_right, exists_or, exists_eq_left]

theorem extent_of_block (h : c.isMark = false) : c.extent hdr = c.size := by
  simp [Cell.extent, h]

/-- Two blocks side by side cover what both of them together do. -/
theorem covered_join (hc : c.isMark = false) (hd : d.isMark = false) (hcd : c.stop = d.addr)
    (h : Covered hdr ({ c with size := c.size + d.size } :: cs) x) :
    Covered hdr (c :: d :: cs) x := by
  have hjoin : Cell.isMark { c with size := c.size + d.size } = false := hc
  simp only [covered_cons, extent_of_block hjoin, extent_of_block hc, extent_of_block hd,
    Cell.stop] at h hcd ⊢
  rcases h with h | h
  · by_cases hx : x < d.addr <;> omega
  · exact .inr (.inr h)

/-- The two parts of a block cover what it does. -/
theorem covered_cut (hc : c.isMark = false) (hwant : want ≤ c.size)
    (h : Covered hdr (cutBlock pre post c want) x) : Covered hdr (pre ++ c :: post) x := by
  have hlive : (c.front want).isMark = false := rfl
  have hrest : (c.rest want).isMark = false := rfl
  simp only [cutBlock, covered_append, covered_cons, extent_of_block hc, extent_of_block hlive,
    extent_of_block hrest, or_assoc] at h ⊢
  simp only [Cell.front, Cell.rest] at h
  rcases h with h | h | h | h | h
  · exact .inl h
  · exact .inr (.inl (by omega))
  · simp [Covered] at h
  · exact .inr (.inl (by omega))
  · exact .inr (.inr h)

theorem covered_absorb (hc : c.use = .free) (hn : (c :: post).IsChain (Next hdr))
    (h : Covered hdr (absorb c post) x) : Covered hdr (c :: post) x := by
  cases post with
  | nil => exact h
  | cons d ds =>
    have hcd := (next_of_block (isMark_of_free hc)).1 (List.isChain_cons_cons.1 hn).1
    cases hd : d.use with
    | free =>
      rw [absorb_free hd] at h
      exact covered_join (isMark_of_free hc) (isMark_of_free hd) hcd h
    | live => rwa [absorb_live hd] at h
    | mark listed =>
      have hm : d.isMark = true := by simp [Cell.isMark, hd]
      have hm' : Cell.isMark { d with use := .mark (listed && ds.isEmpty) } = true := rfl
      rw [absorb_mark hd] at h
      simpa only [covered_cons, Cell.extent, hm, hm'] using h

/-- No byte comes into the heap. -/
theorem Released.covered (hr : Released cs a cs') (h : Heap hdr e cs) (hx : Covered hdr cs' x) :
    Covered hdr cs x := by
  cases hr with
  | @plain pre post c hc hpre =>
    have hmark : c.isMark = false := isMark_of_live hc
    have hfree : Cell.isMark { c with use := .free } = false := rfl
    have hnext : ({ c with use := .free } :: post).IsChain (Next hdr) :=
      isChain_new_head h.next_tail fun y hy =>
        (next_of_block hfree).2 ((next_of_block hmark).1 hy)
    refine covered_append.2 ((covered_append.1 hx).imp_right fun hx => ?_)
    have hx := covered_absorb rfl hnext hx
    simpa only [covered_cons, extent_of_block hmark, extent_of_block hfree] using hx
  | @merged pre post p c hc hp =>
    have hmark : c.isMark = false := isMark_of_live hc
    have hpmark : p.isMark = false := isMark_of_free hp
    have hjoin : Cell.isMark { p with size := p.size + c.size } = false := hpmark
    obtain ⟨hpc, hpost⟩ := List.isChain_cons_cons.1 h.next_tail
    have hstop : p.stop = c.addr := (next_of_block hpmark).1 hpc
    have hnext : ({ p with size := p.size + c.size } :: post).IsChain (Next hdr) := by
      refine isChain_new_head hpost fun y hy => (next_of_block hjoin).2 ?_
      have hy := (next_of_block hmark).1 hy
      simp only [Cell.stop] at hstop hy ⊢
      omega
    refine covered_append.2 ((covered_append.1 hx).imp_right fun hx => ?_)
    exact covered_join hpmark hmark hstop (covered_absorb hp hnext hx)

theorem Taken.covered (ht : Taken want slack cs a cs') (h : Heap hdr e cs) (hwant : hdr ≤ want)
    (hslack : hdr ≤ slack) (hx : Covered hdr cs' x) : Covered hdr cs x := by
  cases ht with
  | @whole pre post c hpre hc hs =>
    have hmark : c.isMark = false := isMark_of_free hc.1
    have hlive : Cell.isMark { c with use := .live } = false := rfl
    simpa only [covered_append, covered_cons, extent_of_block hmark, extent_of_block hlive] using hx
  | @split pre post c hpre hc hs =>
    have hmark : c.isMark = false := isMark_of_free hc.1
    have hcut := h.cut hmark hwant (by omega)
    exact covered_cut hmark hc.2 ((released_rest pre post c want).covered hcut hx)

theorem forall_addr_absorb {P : ℕ → Prop} (hc : P c.addr) (h : ∀ d ∈ post, P d.addr) :
    ∀ d ∈ absorb c post, P d.addr := by
  cases post with
  | nil => simpa [absorb] using hc
  | cons d ds =>
    have hd : P d.addr := h d List.mem_cons_self
    have hds : ∀ y ∈ ds, P y.addr := fun y hy => h y (List.mem_cons_of_mem _ hy)
    cases hu : d.use with
    | free => simpa [absorb_free hu, hc] using hds
    | live => simpa [absorb_live hu, hc, hd] using hds
    | mark listed => simpa [absorb_mark hu, hc, hd] using hds

/-- The cells stay at addresses of which something holds. -/
theorem Released.forall_addr {P : ℕ → Prop} (hr : Released cs a cs') (h : ∀ d ∈ cs, P d.addr) :
    ∀ d ∈ cs', P d.addr := by
  cases hr with
  | @plain pre post c hc hpre =>
    simp only [List.forall_mem_append, List.forall_mem_cons] at h ⊢
    exact ⟨h.1, forall_addr_absorb h.2.1 h.2.2⟩
  | @merged pre post p c hc hp =>
    simp only [List.forall_mem_append, List.forall_mem_cons] at h ⊢
    exact ⟨h.1, forall_addr_absorb h.2.1 h.2.2.2⟩

theorem Taken.forall_addr {P : ℕ → Prop} (ht : Taken want slack cs a cs') (h : ∀ d ∈ cs, P d.addr)
    (hP : ∀ n, P n → P (n + want)) : ∀ d ∈ cs', P d.addr := by
  cases ht with
  | @whole pre post c hpre hc hs =>
    simp only [List.forall_mem_append, List.forall_mem_cons] at h ⊢
    exact h
  | @split pre post c hpre hc hs =>
    simp only [List.forall_mem_append, List.forall_mem_cons] at h ⊢
    exact ⟨h.1, h.2.1, forall_addr_absorb (hP _ h.2.1) h.2.2⟩

/-- The addresses of the end marks. -/
def marks (cs : List Cell) : List ℕ := (cs.filter Cell.isMark).map Cell.addr

@[simp] theorem marks_append : marks (cs ++ cs') = marks cs ++ marks cs' := by
  simp [marks]

theorem marks_of_block (h : c.isMark = false) : marks (c :: cs) = marks cs := by
  simp [marks, h]

theorem marks_of_mark (h : c.isMark = true) : marks (c :: cs) = c.addr :: marks cs := by
  simp [marks, h]

theorem marks_absorb (hc : c.use = .free) : marks (absorb c post) = marks post := by
  have hblock : c.isMark = false := isMark_of_free hc
  cases post with
  | nil => exact marks_of_block hblock
  | cons d ds =>
    cases hd : d.use with
    | free =>
      have hjoin : Cell.isMark { c with size := c.size + d.size } = false := hblock
      rw [absorb_free hd, marks_of_block hjoin, marks_of_block (isMark_of_free hd)]
    | live => rw [absorb_live hd, marks_of_block hblock]
    | mark listed =>
      have hm : d.isMark = true := by simp [Cell.isMark, hd]
      rw [absorb_mark hd, marks_of_block hblock, marks_of_mark rfl, marks_of_mark hm]

/-- The end marks stay where they are. -/
theorem Taken.marks (h : Taken want slack cs a cs') : FreeBlocks.marks cs' = FreeBlocks.marks cs := by
  cases h with
  | @whole pre post c hpre hc hs =>
    rw [marks_append, marks_append, marks_of_block rfl, marks_of_block (isMark_of_free hc.1)]
  | @split pre post c hpre hc hs =>
    rw [marks_append, marks_append, marks_of_block rfl, marks_absorb rfl,
      marks_of_block (isMark_of_free hc.1)]

theorem Released.marks (h : Released cs a cs') : FreeBlocks.marks cs' = FreeBlocks.marks cs := by
  cases h with
  | @plain pre post c hc hpre =>
    rw [marks_append, marks_append, marks_absorb rfl, marks_of_block (isMark_of_live hc)]
  | @merged pre post p c hc hp =>
    rw [marks_append, marks_append, marks_absorb (by exact hp), marks_of_block (isMark_of_free hp),
      marks_of_block (isMark_of_live hc)]

/-! ## The list of the free blocks -/

/-- The cells in the list of the free blocks. -/
def listedCells (cs : List Cell) : List Cell := cs.filter Cell.listed

@[simp] theorem listedCells_append :
    listedCells (cs ++ cs') = listedCells cs ++ listedCells cs' :=
  List.filter_append ..

theorem listedCells_cons (h : c.listed = true) : listedCells (c :: cs) = c :: listedCells cs := by
  simp [listedCells, h]

theorem listedCells_cons_of_not (h : c.listed = false) :
    listedCells (c :: cs) = listedCells cs := by
  simp [listedCells, h]

/-- What is listed first behind a block begins behind it, and at its end only if it is the next
cell. -/
theorem Heap.stop_lt_of_not_listed (h : Heap hdr e (pre ++ c :: d :: post)) (hhdr : 0 < hdr)
    (hc : c.isMark = false) {k : Cell} (hk : k ∈ post) : c.stop < k.addr := by
  have hcd := (next_of_block hc).1 (List.isChain_cons_cons.1 h.next_tail).1
  have hdk : Before hdr d k :=
    List.rel_of_pairwise_cons (List.pairwise_cons.1 (List.pairwise_append.1 h.disjoint).2.1).2 hk
  have hle := h.hdr_le_extent (c := d) (by simp)
  unfold Before at hdk
  omega

/-- A cell that is not the last one is not at the end. -/
theorem Heap.addr_ne_end (h : Heap hdr e (pre ++ c :: d :: post)) (hhdr : 0 < hdr)
    (hpost : post ≠ []) : d.addr ≠ e := by
  have h' : Heap hdr e ((pre ++ [c]) ++ d :: post) := by simpa using h
  exact (h'.addr_lt_end hpost hhdr).ne

/-- The list once the block `d` that ends where `c` did is joined with what follows it. -/
theorem listedCells_absorb (h : Heap hdr e (pre ++ c :: post)) (hhdr : 0 < hdr)
    (hc : c.isMark = false) {k : Cell} {R : List Cell} (hk : listedCells post = k :: R)
    (hd : d.use = .free) :
    listedCells (absorb d post) =
      if c.stop = k.addr ∧ k.addr ≠ e then { d with size := d.size + k.size } :: R
      else d :: k :: R := by
  have hlisted : ∀ n, Cell.listed { d with size := n } = true := by
    intro n
    simp [Cell.listed, hd]
  cases post with
  | nil => simp [listedCells] at hk
  | cons f fs =>
    have hcf := (next_of_block hc).1 (List.isChain_cons_cons.1 h.next_tail).1
    -- the first entry behind a cell that is not listed does not touch the block
    have hfar : listedCells fs = k :: R → ¬ (c.stop = k.addr ∧ k.addr ≠ e) := by
      intro hfs hj
      have hmem : k ∈ fs := (List.mem_filter.1 (hfs ▸ List.mem_cons_self : k ∈ listedCells fs)).1
      exact (h.stop_lt_of_not_listed hhdr hc hmem).ne hj.1
    cases hf : f.use with
    | free =>
      have hfl : f.listed = true := by simp [Cell.listed, hf]
      rw [listedCells_cons hfl, List.cons.injEq] at hk
      obtain ⟨rfl, rfl⟩ := hk
      have hne : fs ≠ [] := by
        have h' : Heap hdr e ((pre ++ [c]) ++ f :: fs) := by simpa using h
        obtain ⟨body, rfl⟩ := h'.ended_tail (isMark_of_free hf)
        simp
      rw [absorb_free hf, listedCells_cons (hlisted _), if_pos ⟨hcf, h.addr_ne_end hhdr hne⟩]
    | live =>
      have hfl : f.listed = false := by simp [Cell.listed, hf]
      rw [listedCells_cons_of_not hfl] at hk
      rw [absorb_live hf, listedCells_cons (hlisted d.size), listedCells_cons_of_not hfl, hk,
        if_neg (hfar hk)]
    | mark listed =>
      have hroom : f.size = 0 := by
        have hroom := h.roomy_post f List.mem_cons_self
        simpa [Roomy, Cell.isMark, hf] using hroom
      rw [absorb_mark hf, listedCells_cons (hlisted d.size)]
      cases listed with
      | false =>
        have hfl : f.listed = false := by simp [Cell.listed, hf]
        rw [listedCells_cons_of_not hfl] at hk
        rw [listedCells_cons_of_not rfl, hk, if_neg (hfar hk)]
      | true =>
        have hfl : f.listed = true := by simp [Cell.listed, hf]
        rw [listedCells_cons hfl, List.cons.injEq] at hk
        obtain ⟨rfl, rfl⟩ := hk
        by_cases hfs : fs = []
        · subst hfs
          have hend : f.addr = e := by
            obtain ⟨body, hbody⟩ := h.ended
            have hlast := congrArg List.getLast? hbody
            simp only [List.getLast?_append, List.getLast?_cons_cons, List.getLast?_singleton,
              Option.some_or, Option.some.injEq] at hlast
            rw [hlast]
          have huse : Use.mark (true && ([] : List Cell).isEmpty) = f.use := hf.symm
          rw [if_neg fun hj => hj.2 hend, huse, listedCells_cons hfl]
        · rw [if_pos ⟨hcf, h.addr_ne_end hhdr hfs⟩, hroom]
          have hempty : (true && fs.isEmpty) = false := by simpa using hfs
          rw [hempty, listedCells_cons_of_not rfl]
          rfl

end FreeBlocks
