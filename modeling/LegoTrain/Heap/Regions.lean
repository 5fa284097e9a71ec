import LegoTrain.Heap.Free

/-!
# The regions of the heap

`vPortDefineHeapRegions_spec` : regions in the order of their addresses become a heap in which
each of them is one free block.
-/

namespace Heap5

open ByteMem FreeBlocks

variable {xStart : ℕ} {m : Mem} {r : ℕ × ℕ} {rs P : List (ℕ × ℕ)} {s : Defined}

/-! ## One region -/

/-- The first address of a region that is aligned. -/
def regionStart (r : ℕ × ℕ) : ℕ := (r.1 + 15) / 16 * 16

/-- Where the end mark of a region stands. -/
def regionEnd (r : ℕ × ℕ) : ℕ := (r.1 + r.2 - 16) / 16 * 16

/-- The region has room for an end mark and a block, and its addresses are not in `xStart`. -/
structure RegionOk (xStart : ℕ) (r : ℕ × ℕ) : Prop where
  pos : 0 < r.1
  top : r.1 + r.2 ≤ 2 ^ 32
  room : regionStart r + 16 ≤ regionEnd r
  away : xStart + 8 ≤ r.1 ∨ r.1 + r.2 ≤ xStart

theorem RegionOk.bounds (h : RegionOk xStart r) :
    r.1 ≤ regionStart r ∧ regionStart r ≤ r.1 + 15 ∧ regionEnd r + 16 ≤ r.1 + r.2 ∧
      regionStart r + 32 ≤ r.1 + r.2 := by
  have hroom := h.room
  unfold regionStart regionEnd at *
  omega

/-- The block of a region and its end mark. -/
def regionCells (r : ℕ × ℕ) : List Cell :=
  [⟨regionStart r, regionEnd r - regionStart r, .free⟩, ⟨regionEnd r, 0, .mark true⟩]

/-- The cells of the regions. -/
def initialCells (rs : List (ℕ × ℕ)) : List Cell := rs.flatMap regionCells

@[simp] theorem initialCells_nil : initialCells [] = [] := rfl

@[simp] theorem initialCells_cons : initialCells (r :: rs) = regionCells r ++ initialCells rs :=
  List.flatMap_cons

@[simp] theorem initialCells_append :
    initialCells (rs ++ P) = initialCells rs ++ initialCells P :=
  List.flatMap_append

/-- The arithmetic of the alignment. -/
theorem andNot_mask {x : ℕ} (h : x < 2 ^ 32) : andNot x portByteAlignmentMask = x / 16 * 16 := by
  have hmask : 2 ^ 32 - 1 - portByteAlignmentMask = (2 ^ 28 - 1) <<< 4 := by decide
  have hround : x / 16 * 16 = (x >>> 4) <<< 4 := by
    rw [Nat.shiftLeft_eq, Nat.shiftRight_eq_div_pow]
  rw [andNot, hmask, hround]
  refine Nat.eq_of_testBit_eq fun i => ?_
  rw [Nat.testBit_and, Nat.testBit_shiftLeft, Nat.testBit_shiftLeft, Nat.testBit_two_pow_sub_one,
    Nat.testBit_shiftRight]
  by_cases h4 : 4 ≤ i
  · have hi : 4 + (i - 4) = i := by omega
    by_cases h32 : i < 32
    · have h28 : i - 4 < 28 := by omega
      simp [h4, h28, hi]
    · have hx : x.testBit i = false :=
        Nat.testBit_lt_two_pow (h.trans_le (Nat.pow_le_pow_right (by decide) (by omega)))
      simp [hi, hx]
  · simp [h4]

theorem alignRegion_eq (h : RegionOk xStart r) :
    alignRegion r.1 r.2 = (regionStart r, r.1 + r.2 - regionStart r) := by
  have hmask : r.1 &&& portByteAlignmentMask = r.1 % 16 := Nat.and_two_pow_sub_one_eq_mod r.1 4
  have htop := h.top
  obtain ⟨h1, h2, h3, h4⟩ := h.bounds
  have hlt : r.1 + 15 < 2 ^ 32 := by
    unfold regionStart at h4
    omega
  unfold alignRegion
  rw [hmask]
  by_cases hr : r.1 % 16 = 0
  · rw [if_neg (not_not.2 hr)]
    unfold regionStart
    ext1 <;> dsimp only <;> omega
  · have hstart : andNot (word (r.1 + (portByteAlignment - 1))) portByteAlignmentMask =
        regionStart r := by
      have hadd : r.1 + (portByteAlignment - 1) = r.1 + 15 := rfl
      rw [hadd, word_of_lt hlt, andNot_mask hlt, regionStart]
    rw [if_pos hr, hstart]
    ext1
    · rfl
    · dsimp only
      rw [sub_of_le h1 (by omega)]
      unfold sub word
      omega

/-- The end mark of a region, as the code computes it. -/
theorem regionEnd_eq (h : RegionOk xStart r) :
    andNot (sub (word (regionStart r + (r.1 + r.2 - regionStart r))) xHeapStructSize)
      portByteAlignmentMask = regionEnd r := by
  have htop := h.top
  obtain ⟨h1, h2, h3, h4⟩ := h.bounds
  have hsub : sub (word (regionStart r + (r.1 + r.2 - regionStart r))) xHeapStructSize =
      r.1 + r.2 - 16 := by
    rw [xHeapStructSize_eq]
    unfold sub word
    omega
  rw [hsub, andNot_mask (by omega), regionEnd]

/-- The headers of a region. -/
def writeRegion (m : Mem) (a e : ℕ) : Mem :=
  setNextFreeBlock (setBlockSize (setNextFreeBlock (setBlockSize m e 0) e 0) a (sub e a)) a e

theorem writeRegion_outside {a e x : ℕ} (ha : Outside a x) (he : Outside e x) :
    writeRegion m a e x = m x := by
  rw [writeRegion, setNextFreeBlock_outside ha, setBlockSize_outside ha,
    setNextFreeBlock_outside he, setBlockSize_outside he]

theorem writeRegion_header {a e p : ℕ} (ha : Apart a p) (he : Apart e p) :
    nextFreeBlock (writeRegion m a e) p = nextFreeBlock m p ∧
      blockSize (writeRegion m a e) p = blockSize m p := by
  have hbytes : ∀ x, p ≤ x → x < p + 8 → writeRegion m a e x = m x := by
    intro x h1 h2
    refine writeRegion_outside ?_ ?_ <;>
    · unfold Outside Apart at *
      omega
  exact ⟨nextFreeBlock_congr hbytes, blockSize_congr hbytes⟩

theorem writeRegion_end {a e : ℕ} (h : Apart a e) :
    nextFreeBlock (writeRegion m a e) e = 0 ∧ blockSize (writeRegion m a e) e = 0 := by
  unfold writeRegion
  rw [nextFreeBlock_setNextFreeBlock_apart h, nextFreeBlock_setBlockSize_apart h,
    nextFreeBlock_setNextFreeBlock (by decide), blockSize_setNextFreeBlock_apart h,
    blockSize_setBlockSize_apart h, blockSize_setNextFreeBlock, blockSize_setBlockSize (by decide)]
  exact ⟨rfl, rfl⟩

theorem writeRegion_block {a e : ℕ} (hae : a ≤ e) (he : e < 2 ^ 32) :
    nextFreeBlock (writeRegion m a e) a = e ∧ blockSize (writeRegion m a e) a = e - a := by
  unfold writeRegion
  rw [nextFreeBlock_setNextFreeBlock he, blockSize_setNextFreeBlock, sub_of_le hae he,
    blockSize_setBlockSize (by omega)]
  exact ⟨rfl, rfl⟩

/-! ## The loop -/

/-- The regions `P` have been defined. -/
structure Defining (xStart : ℕ) (s : Defined) (P : List (ℕ × ℕ)) : Prop where
  linked : Linked xStart s.mem (initialCells P)
  last : nextFreeBlock s.mem s.pxEnd = 0
  ends : ∃ Q p, P = Q ++ [p] ∧ s.pxEnd = regionEnd p
  total : s.xTotalHeapSize = bytes (initialCells P)
  count : s.xDefinedRegions = P.length

theorem RegionOk.apart (h : RegionOk xStart r) :
    Apart (regionStart r) (regionEnd r) ∧ Apart (regionStart r) xStart ∧
      Apart (regionEnd r) xStart := by
  have hroom := h.room
  have haway := h.away
  have hb := h.bounds
  unfold Apart
  omega

theorem bytes_regionCells (r : ℕ × ℕ) : bytes (regionCells r) = regionEnd r - regionStart r := by
  simp [regionCells, bytes]

/-- The first region. -/
theorem defineRegion_first (hr : RegionOk xStart r) (hsmall : bytes (regionCells r) < 2 ^ 31) :
    ∃ s, defineRegion xStart ⟨m, 0, 0, 0⟩ r = some s ∧ Defining xStart s [r] := by
  obtain ⟨hae, hax, hex⟩ := hr.apart
  have htop := hr.top
  have hroom := hr.room
  obtain ⟨h1, h2, h3, h4⟩ := hr.bounds
  rw [bytes_regionCells] at hsmall
  have hdef : defineRegion xStart ⟨m, 0, 0, 0⟩ r =
      some ⟨writeRegion (setBlockSize (setNextFreeBlock m xStart (regionStart r)) xStart 0)
        (regionStart r) (regionEnd r), regionEnd r, regionEnd r - regionStart r, 1⟩ := by
    have hsize := (writeRegion_block (m := setBlockSize
      (setNextFreeBlock m xStart (regionStart r)) xStart 0) (by omega : regionStart r ≤ regionEnd r)
      (by omega)).2
    unfold writeRegion at hsize ⊢
    simp only [defineRegion, alignRegion_eq hr, regionEnd_eq hr, ne_eq, not_true_eq_false,
      false_and, if_false, if_true, hsize, Nat.zero_add, word_of_lt (show regionEnd r -
        regionStart r < 2 ^ 32 by omega)]
  refine ⟨_, hdef, ?_⟩
  obtain ⟨hxn, hxs⟩ := writeRegion_header (m := setBlockSize
    (setNextFreeBlock m xStart (regionStart r)) xStart 0) hax hex
  rw [nextFreeBlock_setBlockSize, nextFreeBlock_setNextFreeBlock (by omega)] at hxn
  rw [blockSize_setBlockSize (by decide)] at hxs
  obtain ⟨han, has⟩ := writeRegion_block (m := setBlockSize
    (setNextFreeBlock m xStart (regionStart r)) xStart 0)
    (by omega : regionStart r ≤ regionEnd r) (by omega)
  obtain ⟨hen, hes⟩ := writeRegion_end (m := setBlockSize
    (setNextFreeBlock m xStart (regionStart r)) xStart 0) hae
  exact
    { linked :=
        { links := by
            simp only [initialCells_cons, initialCells_nil, regionCells, List.append_nil,
              List.map_cons, List.map_nil, List.isChain_cons_cons, List.isChain_singleton, and_true]
            exact ⟨hxn, han⟩
          sizes := by
            simp only [initialCells_cons, initialCells_nil, regionCells, List.append_nil,
              List.forall_mem_cons]
            exact ⟨has, hes, by simp⟩
          start := hxs }
      last := hen
      ends := ⟨[], r, rfl, rfl⟩
      total := by simp [bytes_regionCells]
      count := rfl }

/-- One region ends before another one begins. -/
def RegionBefore (p r : ℕ × ℕ) : Prop := p.1 + p.2 ≤ r.1

/-- The cells of the regions before `r` come before its aligned start. -/
theorem addr_lt_of_before (hok : ∀ p ∈ P, RegionOk xStart p) (hP : ∀ p ∈ P, RegionBefore p r)
    (hr : r.1 ≤ regionStart r) {c : Cell} (hc : c ∈ initialCells P) :
    c.addr + 16 ≤ regionStart r := by
  obtain ⟨p, hp, hc⟩ := List.mem_flatMap.1 hc
  have hb := (hok p hp).bounds
  have hroom := (hok p hp).room
  have hpr : p.1 + p.2 ≤ r.1 := hP p hp
  simp only [regionCells, List.mem_cons, List.not_mem_nil, or_false] at hc
  rcases hc with rfl | rfl <;>
  · dsimp only
    omega

/-- Another region. -/
theorem defineRegion_next (hd : Defining xStart s P) (hok : ∀ p ∈ P ++ [r], RegionOk xStart p)
    (hP : (P ++ [r]).Pairwise RegionBefore) (hsmall : bytes (initialCells (P ++ [r])) < 2 ^ 31) :
    ∃ s', defineRegion xStart s r = some s' ∧ Defining xStart s' (P ++ [r]) := by
  have hr : RegionOk xStart r := hok r (by simp)
  obtain ⟨Q, p, rfl, hpe⟩ := hd.ends
  have hp : RegionOk xStart p := hok p (by simp)
  obtain ⟨hPQ, -, hPr⟩ := List.pairwise_append.1 hP
  have hbefore : ∀ q ∈ Q ++ [p], RegionBefore q r := fun q hq => hPr q hq r (by simp)
  have hokP : ∀ q ∈ Q ++ [p], RegionOk xStart q := fun q hq => hok q (List.mem_append_left _ hq)
  obtain ⟨hae, hax, hex⟩ := hr.apart
  obtain ⟨h1, h2, h3, h4⟩ := hr.bounds
  have htop := hr.top
  have hroom := hr.room
  -- the end mark of the region before
  have hpbounds := hp.bounds
  have hpr : p.1 + p.2 ≤ r.1 := hbefore p (by simp)
  have hpea : s.pxEnd + 16 ≤ regionStart r := by omega
  have hpe0 : s.pxEnd ≠ 0 := by
    have hproom := hp.room
    omega
  have hfar : ∀ c ∈ initialCells (Q ++ [p]),
      Apart (regionStart r) c.addr ∧ Apart (regionEnd r) c.addr := by
    intro c hc
    have hlt := addr_lt_of_before hokP hbefore h1 hc
    unfold Apart
    omega
  have hkeep : ∀ c ∈ initialCells (Q ++ [p]),
      nextFreeBlock (writeRegion s.mem (regionStart r) (regionEnd r)) c.addr =
        nextFreeBlock s.mem c.addr ∧
      blockSize (writeRegion s.mem (regionStart r) (regionEnd r)) c.addr = blockSize s.mem c.addr :=
    fun c hc => writeRegion_header (hfar c hc).1 (hfar c hc).2
  obtain ⟨han, has⟩ := writeRegion_block (m := s.mem) (by omega : regionStart r ≤ regionEnd r)
    (by omega)
  obtain ⟨hen, hes⟩ := writeRegion_end (m := s.mem) hae
  have hpa : Apart s.pxEnd (regionStart r) := .inl (by omega)
  have hpe' : Apart s.pxEnd (regionEnd r) := .inl (by omega)
  simp only [initialCells_append, bytes_append, initialCells_cons, initialCells_nil,
    List.append_nil] at hsmall
  have htotal := hd.total
  simp only [initialCells_append, initialCells_cons, initialCells_nil, List.append_nil,
    bytes_append] at htotal
  rw [bytes_regionCells r] at hsmall
  have hdef : defineRegion xStart s r =
      some ⟨setNextFreeBlock (writeRegion s.mem (regionStart r) (regionEnd r)) s.pxEnd
          (regionStart r), regionEnd r, s.xTotalHeapSize + (regionEnd r - regionStart r),
        s.xDefinedRegions + 1⟩ := by
    have hcount : s.xDefinedRegions ≠ 0 := by simp [hd.count]
    have hassert : ¬ (s.xDefinedRegions ≠ 0 ∧ (s.pxEnd = 0 ∨ regionStart r ≤ s.pxEnd)) := by omega
    have hsize : blockSize (setNextFreeBlock (writeRegion s.mem (regionStart r) (regionEnd r))
        s.pxEnd (regionStart r)) (regionStart r) = regionEnd r - regionStart r := by
      rw [blockSize_setNextFreeBlock_apart hpa, has]
    have hsum : word (s.xTotalHeapSize + (regionEnd r - regionStart r)) =
        s.xTotalHeapSize + (regionEnd r - regionStart r) := word_of_lt (by omega)
    unfold writeRegion at hsize ⊢
    simp only [defineRegion, alignRegion_eq hr, regionEnd_eq hr, if_neg hassert, if_neg hcount,
      if_pos hpe0, hsize, hsum]
  refine ⟨_, hdef, ?_⟩
  -- the entries in front of that end mark
  have hB : ∀ x ∈ xStart :: (initialCells Q).map Cell.addr ++ [regionStart p],
      Apart s.pxEnd x ∧ Apart (regionStart r) x ∧ Apart (regionEnd r) x := by
    intro x hx
    rw [List.cons_append, List.mem_cons, List.mem_append, List.mem_singleton] at hx
    rcases hx with rfl | hx | rfl
    · rw [hpe]
      exact ⟨hp.apart.2.2, hax, hex⟩
    · obtain ⟨c, hc, rfl⟩ := List.mem_map.1 hx
      have hlt := addr_lt_of_before (r := p) (fun q hq => hokP q (List.mem_append_left _ hq))
        (fun q hq => (List.pairwise_append.1 hPQ).2.2 q hq p (by simp)) hpbounds.1 hc
      have hproom := hp.room
      unfold Apart
      omega
    · have hproom := hp.room
      unfold Apart
      omega
  have hBnext : ∀ x ∈ xStart :: (initialCells Q).map Cell.addr ++ [regionStart p],
      nextFreeBlock (setNextFreeBlock (writeRegion s.mem (regionStart r) (regionEnd r)) s.pxEnd
        (regionStart r)) x = nextFreeBlock s.mem x := by
    intro x hx
    obtain ⟨h1, h2, h3⟩ := hB x hx
    rw [nextFreeBlock_setNextFreeBlock_apart h1, (writeRegion_header h2 h3).1]
  have hsizes : ∀ c ∈ initialCells (Q ++ [p]), c.addr = s.pxEnd ∨ Apart s.pxEnd c.addr := by
    intro c hc
    rw [initialCells_append, List.mem_append] at hc
    rcases hc with hc | hc
    · exact .inr (hB c.addr (by simpa using .inr (.inl ⟨c, hc, rfl⟩))).1
    · simp only [initialCells_cons, initialCells_nil, regionCells, List.append_nil, List.mem_cons,
        List.not_mem_nil, or_false] at hc
      rcases hc with rfl | rfl
      · exact .inr (hB _ (by simp)).1
      · exact .inl hpe.symm
  have hchain : ((xStart :: (initialCells Q).map Cell.addr ++ [regionStart p]) ++
      regionEnd p :: []).IsChain (Links s.mem) := by
    simpa [regionCells] using hd.linked.links
  have htail : (regionEnd p :: [regionStart r, regionEnd r]).IsChain
      (Links (setNextFreeBlock (writeRegion s.mem (regionStart r) (regionEnd r)) s.pxEnd
        (regionStart r))) := by
    rw [← hpe]
    refine List.isChain_cons_cons.2 ⟨nextFreeBlock_setNextFreeBlock (by omega), ?_⟩
    refine List.isChain_cons_cons.2 ⟨?_, List.isChain_singleton _⟩
    exact (nextFreeBlock_setNextFreeBlock_apart hpa).trans han
  exact
    { linked :=
        { links := by
            have hall := isChain_relink hchain
              (fun x hx y (hy : Links s.mem x y) => show Links _ x y from (hBnext x hx).trans hy)
              htail
            simpa [regionCells] using hall
          sizes := by
            intro c hc
            rw [initialCells_append, List.mem_append] at hc
            rcases hc with hc | hc
            · rw [blockSize_setNextFreeBlock_of (hsizes c hc), (hkeep c hc).2]
              exact hd.linked.sizes c hc
            · simp only [initialCells_cons, initialCells_nil, regionCells, List.append_nil,
                List.mem_cons, List.not_mem_nil, or_false] at hc
              rcases hc with rfl | rfl
              · exact (blockSize_setNextFreeBlock_apart hpa).trans has
              · exact (blockSize_setNextFreeBlock_apart hpe').trans hes
          start := by
            obtain ⟨h1, h2, h3⟩ := hB xStart (by simp)
            rw [blockSize_setNextFreeBlock_apart h1, (writeRegion_header h2 h3).2]
            exact hd.linked.start }
      last := (nextFreeBlock_setNextFreeBlock_apart hpe').trans hen
      ends := ⟨Q ++ [p], r, rfl, rfl⟩
      total := by
        simp only [initialCells_append, bytes_append, initialCells_cons, initialCells_nil,
          List.append_nil, bytes_regionCells r]
        omega
      count := by simp [hd.count] }

/-! ## All regions -/

/-- What the linker script promises. -/
structure RegionsOk (xStart : ℕ) (rs : List (ℕ × ℕ)) : Prop where
  nonempty : rs ≠ []
  each : ∀ r ∈ rs, RegionOk xStart r
  ordered : rs.Pairwise RegionBefore
  small : bytes (initialCells rs) < 2 ^ 31
  start : xStart + 8 ≤ 2 ^ 32

/-- The entries that end the array. -/
def Terminates (t : List (ℕ × ℕ)) : Prop := ∀ r ∈ t.head?, r.2 = 0

theorem RegionOk.size_pos (h : RegionOk xStart r) : r.2 > 0 := by
  have hb := h.bounds
  omega

theorem defineRegions_eq {t : List (ℕ × ℕ)} (ht : Terminates t) : ∀ (rs : List (ℕ × ℕ))
    {P : List (ℕ × ℕ)} {s : Defined}, Defining xStart s P →
    (∀ p ∈ P ++ rs, RegionOk xStart p) → (P ++ rs).Pairwise RegionBefore →
    bytes (initialCells (P ++ rs)) < 2 ^ 31 →
    ∃ s', defineRegions xStart s (rs ++ t) = some s' ∧ Defining xStart s' (P ++ rs)
  | [], P, s, hd, _, _, _ => by
    refine ⟨s, ?_, by simpa using hd⟩
    cases t with
    | nil => rfl
    | cons r t =>
      have hr : r.2 = 0 := ht r (by simp)
      simp [defineRegions, hr]
  | r :: rs, P, s, hd, hok, hP, hsmall => by
    have hsplit : P ++ r :: rs = (P ++ [r]) ++ rs := by simp
    rw [hsplit] at hok hP hsmall
    have hsmall' : bytes (initialCells (P ++ [r])) < 2 ^ 31 := by
      rw [initialCells_append, bytes_append] at hsmall
      omega
    obtain ⟨s', hs', hd'⟩ := defineRegion_next hd (fun p hp => hok p (List.mem_append_left _ hp))
      (List.pairwise_append.1 hP).1 hsmall'
    obtain ⟨s'', hs'', hd''⟩ := defineRegions_eq ht rs hd' hok hP hsmall
    refine ⟨s'', ?_, by simpa using hd''⟩
    have hpos := (hok r (by simp)).size_pos
    rw [List.cons_append, defineRegions, if_pos hpos, hs', Option.bind_some, hs'']

theorem initialCells_use (rs : List (ℕ × ℕ)) :
    ∀ c ∈ initialCells rs, c.use = .free ∨ c.use = .mark true ∧ c.size = 0 := by
  intro c hc
  obtain ⟨r, -, hc⟩ := List.mem_flatMap.1 hc
  simp only [regionCells, List.mem_cons, List.not_mem_nil, or_false] at hc
  rcases hc with rfl | rfl
  · exact .inl rfl
  · exact .inr ⟨rfl, rfl⟩

/-- All cells are in the list of the free blocks. -/
theorem listedCells_initialCells (rs : List (ℕ × ℕ)) :
    listedCells (initialCells rs) = initialCells rs := by
  refine List.filter_eq_self.2 fun c hc => ?_
  rcases initialCells_use rs c hc with hu | ⟨hu, -⟩ <;> simp [Cell.listed, hu]

theorem liveCells_initialCells (rs : List (ℕ × ℕ)) : liveCells (initialCells rs) = [] := by
  refine List.filter_eq_nil_iff.2 fun c hc => ?_
  rcases initialCells_use rs c hc with hu | ⟨hu, -⟩ <;> simp [hu]

theorem initialCells_next : ∀ {rs : List (ℕ × ℕ)}, (∀ r ∈ rs, RegionOk xStart r) →
    rs.Pairwise RegionBefore → (initialCells rs).IsChain (Next 16)
  | [], _, _ => .nil
  | r :: rs, hok, hP => by
    have hr := hok r List.mem_cons_self
    have hroom := hr.room
    obtain ⟨hrP, hP⟩ := List.pairwise_cons.1 hP
    have ih := initialCells_next (fun q hq => hok q (List.mem_cons_of_mem _ hq)) hP
    have hblock : Next 16 ⟨regionStart r, regionEnd r - regionStart r, .free⟩
        ⟨regionEnd r, 0, .mark true⟩ := by
      refine (next_of_block rfl).2 ?_
      simp only [Cell.stop]
      omega
    rw [initialCells_cons, regionCells, List.cons_append]
    refine List.isChain_cons_cons.2 ⟨hblock, ?_⟩
    cases rs with
    | nil => exact List.isChain_singleton _
    | cons q rs =>
      refine List.isChain_cons_cons.2 ⟨?_, ih⟩
      have hrq : r.1 + r.2 ≤ q.1 := hrP q List.mem_cons_self
      have hb := hr.bounds
      have hqb := (hok q (by simp)).bounds
      simp only [Next, Cell.isMark, if_true]
      omega

theorem initialCells_loose : ∀ rs : List (ℕ × ℕ), (initialCells rs).IsChain Loose
  | [] => .nil
  | r :: rs => by
    rw [initialCells_cons, regionCells, List.cons_append]
    refine List.isChain_cons_cons.2 ⟨fun _ => by simp, ?_⟩
    cases rs with
    | nil => exact List.isChain_singleton _
    | cons q rs =>
      exact List.isChain_cons_cons.2 ⟨fun h => by simp at h, initialCells_loose (q :: rs)⟩

theorem placed_initialCells (h : RegionsOk xStart rs) {Q : List (ℕ × ℕ)} {p : ℕ × ℕ}
    (hrs : rs = Q ++ [p]) : Placed xStart (regionEnd p) (initialCells rs) where
  heap :=
    { next := initialCells_next h.each h.ordered
      roomy := by
        intro c hc
        obtain ⟨r, hr, hc⟩ := List.mem_flatMap.1 hc
        have hroom := (h.each r hr).room
        simp only [regionCells, List.mem_cons, List.not_mem_nil, or_false] at hc
        rcases hc with rfl | rfl
        · simp only [Roomy, Cell.isMark, Bool.false_eq_true, if_false]
          omega
        · simp [Roomy, Cell.isMark]
      loose := initialCells_loose rs
      ended := ⟨initialCells Q ++ [⟨regionStart p, regionEnd p - regionStart p, .free⟩], by
        simp [hrs, regionCells]⟩ }
  usable := by
    rintro x ⟨c, hc, h1, h2⟩
    obtain ⟨r, hr, hc⟩ := List.mem_flatMap.1 hc
    have hr := h.each r hr
    have hb := hr.bounds
    have htop := hr.top
    have hpos := hr.pos
    have haway := hr.away
    have hroom := hr.room
    simp only [regionCells, List.mem_cons, List.not_mem_nil, or_false] at hc
    rcases hc with rfl | rfl <;>
    · simp only [Cell.extent, Cell.isMark, Bool.false_eq_true, if_false, if_true] at h1 h2
      unfold Usable Outside
      omega
  aligned := by
    intro c hc
    obtain ⟨r, -, hc⟩ := List.mem_flatMap.1 hc
    simp only [regionCells, List.mem_cons, List.not_mem_nil, or_false] at hc
    rcases hc with rfl | rfl <;> exact Nat.dvd_mul_left _ _
  small := h.small
  start := h.start

/-- The regions become a heap. -/
theorem vPortDefineHeapRegions_spec (h : RegionsOk xStart rs) {t : List (ℕ × ℕ)}
    (ht : Terminates t) (m : Mem) :
    ∃ s, vPortDefineHeapRegions xStart (.reset m) (rs ++ t) = some s ∧
      Shows xStart s (initialCells rs) := by
  obtain ⟨r, rs, rfl⟩ := List.exists_cons_of_ne_nil h.nonempty
  have hsmall : bytes (regionCells r) < 2 ^ 31 := by
    have hall := h.small
    rw [initialCells_cons, bytes_append] at hall
    omega
  have hr := h.each r List.mem_cons_self
  obtain ⟨s1, hs1, hd1⟩ := defineRegion_first (m := m) hr hsmall
  obtain ⟨s2, hs2, hd2⟩ := defineRegions_eq ht rs hd1 h.each h.ordered h.small
  have hloop : defineRegions xStart ⟨m, 0, 0, 0⟩ (r :: rs ++ t) = some s2 := by
    rw [List.cons_append, defineRegions, if_pos hr.size_pos, hs1, Option.bind_some, hs2]
  have htotal : s2.xTotalHeapSize ≠ 0 := by
    have hroom := hr.room
    have hbytes := bytes_regionCells r
    rw [hd2.total, List.singleton_append, initialCells_cons, bytes_append]
    omega
  have hdef : vPortDefineHeapRegions xStart (.reset m) (r :: rs ++ t) =
      some ⟨s2.mem, s2.pxEnd, s2.xTotalHeapSize, s2.xTotalHeapSize, 0, 0, 1 <<< (4 * 8 - 1)⟩ := by
    simp only [vPortDefineHeapRegions, HeapState.reset, ne_eq, not_true_eq_false, if_false, hloop,
      Option.bind_some, if_neg htotal]
  refine ⟨_, hdef, ?_⟩
  obtain ⟨Q, p, hQ, hp⟩ := hd2.ends
  have hplaced := placed_initialCells h hQ
  exact
    { placed := by
        dsimp only
        rw [hp]
        exact hplaced
      linked := by
        rw [listedCells_initialCells]
        exact hd2.linked
      last := hd2.last
      live := by
        intro c hc hlive
        rcases initialCells_use _ c hc with hu | ⟨hu, -⟩ <;> simp [hu] at hlive
      free := by
        have hsum := freeBytes_add_liveBytes hplaced.heap.roomy
        rw [liveCells_initialCells] at hsum
        exact hd2.total.trans hsum.symm
      low := le_rfl
      bit := rfl }

end Heap5
