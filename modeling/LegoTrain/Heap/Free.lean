import Mathlib.Data.Nat.Bitwise
import LegoTrain.Heap.Insert

/-!
# Giving back

`Shows` says that the memory and the variables of `heap_5.c` are those of a heap of cells.
`vPortFree_spec` : `vPortFree` gives a block of that heap back, and touches no byte of the blocks
that stay live.
-/

namespace Heap5

open ByteMem FreeBlocks

/-- The memory and the variables show the heap of the cells. -/
structure Shows (xStart : ℕ) (s : HeapState) (cs : List Cell) : Prop where
  placed : Placed xStart s.pxEnd cs
  linked : Linked xStart s.mem (listedCells cs)
  last : nextFreeBlock s.mem s.pxEnd = 0
  live : ∀ c ∈ cs, c.use = .live →
    nextFreeBlock s.mem c.addr = 0 ∧ blockSize s.mem c.addr = c.size + 2 ^ 31
  free : s.xFreeBytesRemaining = freeBytes cs
  low : s.xMinimumEverFreeBytesRemaining ≤ s.xFreeBytesRemaining
  bit : s.xBlockAllocatedBit = 2 ^ 31

variable {xStart e a want : ℕ} {cs cs' pre post A R : List Cell} {c d : Cell} {m m' : Mem}
  {s s' : HeapState}

/-! ## Live blocks are not touched -/

/-- The bytes of the live blocks are as before. -/
def KeepsLive (m m' : Mem) (cs : List Cell) : Prop :=
  ∀ d ∈ liveCells cs, ∀ x, d.addr ≤ x → x < d.stop → m' x = m x

theorem Placed.not_mark_of_live (hd : d ∈ liveCells cs) : d.isMark = false :=
  isMark_of_live (mem_liveCells.1 hd).2

/-- Two cells of a heap are apart. -/
theorem Placed.disjoint_or_eq (h : Placed xStart e cs) (hc : c ∈ cs) (hd : d ∈ cs) :
    c = d ∨ Before 16 c d ∨ Before 16 d c := by
  obtain ⟨pre, post, rfl⟩ := List.append_of_mem hc
  rcases List.mem_append.1 hd with hd | hd
  · exact .inr (.inr (h.before hd))
  rcases List.mem_cons.1 hd with rfl | hd
  · exact .inl rfl
  · exact .inr (.inl (h.after hd))

/-- A header of another cell is outside a live block. -/
theorem Placed.outside_of_live (h : Placed xStart e cs) (hc : c ∈ cs) (hd : d ∈ liveCells cs)
    (hne : c ≠ d) {x : ℕ} (h1 : d.addr ≤ x) (h2 : x < d.stop) : Outside c.addr x := by
  have hdm := Placed.not_mark_of_live hd
  have hcl := h.header_le hc
  unfold Cell.stop at h2
  rcases h.disjoint_or_eq hc (mem_liveCells.1 hd).1 with heq | hb | hb
  · exact absurd heq hne
  · unfold Before at hb
    unfold Outside
    omega
  · unfold Before at hb
    rw [extent_of_block hdm] at hb
    unfold Outside
    omega

theorem Placed.outside_start (h : Placed xStart e cs) (hd : d ∈ liveCells cs) {x : ℕ}
    (h1 : d.addr ≤ x) (h2 : x < d.stop) : Outside xStart x := by
  have hdm := Placed.not_mark_of_live hd
  refine (h.usable_of_mem (mem_liveCells.1 hd).1 h1 ?_).2.2
  rw [extent_of_block hdm]
  exact h2

/-- A header in a block, away from the others. -/
theorem Linked.congr (h : Linked xStart m A)
    (hm : ∀ p ∈ xStart :: A.map Cell.addr, ∀ x, p ≤ x → x < p + 8 → m' x = m x) :
    Linked xStart m' A where
  links := links_keep h.links fun p hp => nextFreeBlock_congr (hm p hp)
  sizes := by
    intro c hc
    rw [blockSize_congr (hm c.addr (by simpa using .inr ⟨c, hc, rfl⟩))]
    exact h.sizes c hc
  start := (blockSize_congr (hm xStart List.mem_cons_self)).trans h.start

/-- The header of a live block is not part of the list. -/
theorem Placed.linked_of_header (h : Placed xStart e cs) (hc : c ∈ liveCells cs)
    (hl : Linked xStart m (listedCells cs)) (hm : ∀ x, Outside c.addr x → m' x = m x) :
    Linked xStart m' (listedCells cs) := by
  obtain ⟨hcmem, hlive⟩ := mem_liveCells.1 hc
  refine hl.congr fun p hp x h1 h2 => hm x ?_
  have happ : Apart c.addr p := by
    rcases List.mem_cons.1 hp with rfl | hp
    · exact (h.apart_start hcmem).symm
    · obtain ⟨d, hd, rfl⟩ := List.mem_map.1 hp
      obtain ⟨hdmem, hdl⟩ := List.mem_filter.1 hd
      rcases h.disjoint_or_eq hcmem hdmem with rfl | hb | hb
      · simp [Cell.listed, hlive] at hdl
      · exact Before.apart hb (h.header_le hcmem)
      · exact (Before.apart hb (h.header_le hdmem)).symm
  unfold Outside Apart at *
  omega

/-! ## The mark of the application -/

theorem or_allocatedBit {n : ℕ} (h : n < 2 ^ 31) : n ||| 2 ^ 31 = n + 2 ^ 31 := by
  have hor := Nat.two_pow_add_eq_or_of_lt h 1
  rw [Nat.mul_one] at hor
  rw [Nat.or_comm, ← hor, Nat.add_comm]

theorem and_allocatedBit {n : ℕ} (h : n < 2 ^ 31) : (n + 2 ^ 31) &&& 2 ^ 31 = 2 ^ 31 := by
  rw [Nat.and_two_pow, Nat.add_comm, Nat.testBit_two_pow_add_eq, Nat.testBit_lt_two_pow h]
  rfl

theorem and_allocatedBit_of_lt {n : ℕ} (h : n < 2 ^ 31) : n &&& 2 ^ 31 = 0 := by
  rw [Nat.and_two_pow, Nat.testBit_lt_two_pow h]
  rfl

theorem andNot_allocatedBit {n : ℕ} (h : n < 2 ^ 31) : andNot (n + 2 ^ 31) (2 ^ 31) = n := by
  have hmask : 2 ^ 32 - 1 - 2 ^ 31 = 2 ^ 31 - 1 := by decide
  rw [andNot, hmask, Nat.and_two_pow_sub_one_eq_mod, Nat.add_mod_right, Nat.mod_eq_of_lt h]

theorem sub_of_le {n k : ℕ} (h : k ≤ n) (hn : n < 2 ^ 32) : sub n k = n - k := by
  unfold sub word
  omega

@[simp] theorem xHeapStructSize_eq : xHeapStructSize = 16 := by decide

/-! ## `vPortFree` -/

theorem Placed.eq_of_addr (h : Placed xStart e cs) (hc : c ∈ cs) (hd : d ∈ cs)
    (ha : c.addr = d.addr) : c = d := by
  have hcl := h.header_le hc
  have hdl := h.header_le hd
  rcases h.disjoint_or_eq hc hd with heq | hb | hb
  · exact heq
  · unfold Before at hb
    omega
  · unfold Before at hb
    omega

theorem Placed.size_lt (h : Placed xStart e cs) (hc : c ∈ cs) : c.size < 2 ^ 31 :=
  (size_le_bytes hc).trans_lt h.small

/-- The other live blocks are elsewhere. -/
theorem Placed.addr_ne_of_live {l r : List Cell} {n : ℕ} (h : Placed xStart e cs)
    (hcs : liveCells cs = l ++ ⟨a, n, .live⟩ :: r) (hd : d ∈ l ++ r) : d.addr ≠ a := by
  have hpair : (liveCells cs).Pairwise (Before 16) := h.heap.disjoint.sublist List.filter_sublist
  have hmem : ∀ f ∈ l ++ ⟨a, n, .live⟩ :: r, f ∈ cs := by
    intro f hf
    rw [← hcs] at hf
    exact (mem_liveCells.1 hf).1
  have hsize := h.header_le (hmem ⟨a, n, .live⟩ (by simp))
  rw [hcs] at hpair
  obtain ⟨-, hr, hl⟩ := List.pairwise_append.1 hpair
  rcases List.mem_append.1 hd with hd | hd
  · have hdl := h.header_le (hmem d (by simp [hd]))
    have hb := hl d hd _ List.mem_cons_self
    unfold Before at hb
    dsimp only at hb
    omega
  · have hb := List.rel_of_pairwise_cons hr hd
    unfold Before at hb
    dsimp only at hb
    omega

/-- What is still live was so before, elsewhere. -/
theorem Placed.live_of_released (h : Placed xStart e cs) (hr : Released cs a cs')
    (hd : d ∈ liveCells cs') : d ∈ liveCells cs ∧ d.addr ≠ a := by
  obtain ⟨l, r, n, hcs, hcs'⟩ := hr.liveCells
  rw [hcs'] at hd
  refine ⟨?_, h.addr_ne_of_live hcs hd⟩
  rw [hcs]
  rcases List.mem_append.1 hd with hd | hd <;> simp [hd]

theorem Placed.freeBytes_released (h : Placed xStart e cs) (hr : Released cs c.addr cs')
    (hc : c ∈ liveCells cs) : freeBytes cs' = freeBytes cs + c.size := by
  obtain ⟨l, r, n, hcs, hcs'⟩ := hr.liveCells
  have hmem : (⟨c.addr, n, .live⟩ : Cell) ∈ cs :=
    (mem_liveCells.1 (show _ ∈ liveCells cs by rw [hcs]; simp)).1
  have hn : c = ⟨c.addr, n, .live⟩ := h.eq_of_addr (mem_liveCells.1 hc).1 hmem rfl
  have hsize : c.size = n := congrArg Cell.size hn
  have hsum := freeBytes_add_liveBytes h.heap.roomy
  have hsum' := freeBytes_add_liveBytes (h.released hr).heap.roomy
  rw [hcs, bytes_append, bytes_cons] at hsum
  rw [hcs', bytes_append, hr.bytes] at hsum'
  dsimp only at hsum
  omega

theorem freeBytes_le_bytes (h : Placed xStart e cs) : freeBytes cs ≤ bytes cs := by
  have hsum := freeBytes_add_liveBytes h.heap.roomy
  omega

/-- The header of a cell is outside that of another one. -/
theorem Placed.outside_header (h : Placed xStart e cs) (hc : c ∈ cs) (hd : d ∈ cs)
    (hne : c.addr ≠ d.addr) {x : ℕ} (h1 : d.addr ≤ x) (h2 : x < d.addr + 8) : Outside c.addr x := by
  have hcl := h.header_le hc
  have hdl := h.header_le hd
  unfold Outside
  rcases h.disjoint_or_eq hc hd with rfl | hb | hb
  · exact absurd rfl hne
  · unfold Before at hb
    omega
  · unfold Before at hb
    omega

theorem Placed.outside_start_header (h : Placed xStart e cs) (hd : d ∈ cs) {x : ℕ}
    (h1 : d.addr ≤ x) (h2 : x < d.addr + 8) : Outside xStart x := by
  have hdl := h.header_le hd
  exact (h.usable_of_mem hd h1 (by omega)).2.2

theorem Placed.exists_end (h : Placed xStart e cs) : ⟨e, 0, .mark true⟩ ∈ cs := by
  obtain ⟨body, rfl⟩ := h.heap.ended
  simp

/-- A block comes before the last end mark. -/
theorem Placed.addr_lt_end (h : Placed xStart e cs) (hc : c ∈ cs) (hm : c.isMark = false) :
    c.addr < e := by
  obtain ⟨pre, post, rfl⟩ := List.append_of_mem hc
  obtain ⟨body, rfl⟩ := h.heap.ended_tail hm
  exact h.heap.addr_lt_end (by simp) (by decide)

theorem KeepsLive.header (h : KeepsLive m m' cs) (hp : Placed xStart e cs) (hd : d ∈ liveCells cs) :
    nextFreeBlock m' d.addr = nextFreeBlock m d.addr ∧
      blockSize m' d.addr = blockSize m d.addr := by
  have hle := hp.header_le (mem_liveCells.1 hd).1
  rw [extent_of_block (Placed.not_mark_of_live hd)] at hle
  have hbytes : ∀ x, d.addr ≤ x → x < d.addr + 8 → m' x = m x := by
    intro x h1 h2
    refine h d hd x h1 ?_
    unfold Cell.stop
    omega
  exact ⟨nextFreeBlock_congr hbytes, blockSize_congr hbytes⟩

/-- `vPortFree` gives a live block back, and does not touch the others. -/
theorem vPortFree_spec (h : Shows xStart s cs) (hc : c ∈ liveCells cs) :
    ∃ s' cs', vPortFree xStart s (c.addr + 16) = some s' ∧ Released cs c.addr cs' ∧
      Shows xStart s' cs' ∧ s'.pxEnd = s.pxEnd ∧ KeepsLive s.mem s'.mem cs' := by
  obtain ⟨hcmem, hlive⟩ := mem_liveCells.1 hc
  obtain ⟨hnext, hsize⟩ := h.live c hcmem hlive
  have hlt := h.placed.size_lt hcmem
  have haddr := h.placed.addr_lt hcmem
  have hlink : sub (c.addr + 16) xHeapStructSize = c.addr := by
    rw [xHeapStructSize_eq]
    unfold sub word
    omega
  obtain ⟨cs', hr⟩ := exists_released hcmem hlive
  obtain ⟨m', hins, hlinked, hout⟩ := h.placed.insert hr
    (h.placed.linked_of_header hc h.linked fun _ => setBlockSize_outside (n := c.size)) (by
      intro d hd ha
      rw [h.placed.eq_of_addr hd hcmem ha]
      exact blockSize_setBlockSize (by omega))
  have hkeep : KeepsLive s.mem m' cs' := by
    intro d hd x h1 h2
    obtain ⟨hdlive, hne⟩ := h.placed.live_of_released hr hd
    have hcout := h.placed.outside_of_live hcmem hdlive (fun heq => hne (heq ▸ rfl)) h1 h2
    rw [hout x (h.placed.outside_start hdlive h1 h2) hcout, setBlockSize_outside hcout]
    intro k hk _
    obtain ⟨hkmem, hkl⟩ := List.mem_filter.1 hk
    refine h.placed.outside_of_live hkmem hdlive ?_ h1 h2
    rintro rfl
    simp [Cell.listed, (mem_liveCells.1 hdlive).2] at hkl
  have hfree := h.placed.freeBytes_released hr hc
  have hsmall := freeBytes_le_bytes (h.placed.released hr)
  have hbytes := (h.placed.released hr).small
  have hlast : nextFreeBlock m' s.pxEnd = 0 := by
    have hend := h.placed.exists_end
    have hca := h.placed.addr_lt_end hcmem (isMark_of_live hlive)
    rw [← h.last]
    refine nextFreeBlock_congr fun x h1 h2 => ?_
    have hcout := h.placed.outside_header hcmem hend hca.ne h1 h2
    rw [hout x (h.placed.outside_start_header hend h1 h2) hcout, setBlockSize_outside hcout]
    intro k hk hka
    exact h.placed.outside_header (List.mem_filter.1 hk).1 hend (hka.trans hca).ne h1 h2
  have hshows : Shows xStart
      { s with
        mem := m'
        xFreeBytesRemaining := freeBytes cs'
        xNumberOfSuccessfulFrees := word (s.xNumberOfSuccessfulFrees + 1) } cs' :=
    { placed := h.placed.released hr
      linked := hlinked
      last := hlast
      live := by
        intro d hd hdlive
        have hdmem := mem_liveCells.2 ⟨hd, hdlive⟩
        obtain ⟨hn, hs⟩ := hkeep.header (h.placed.released hr) hdmem
        have hold := (h.placed.live_of_released hr hdmem).1
        rw [hn, hs]
        exact h.live d (mem_liveCells.1 hold).1 hdlive
      free := rfl
      low := by
        have hlow := h.low
        rw [h.free] at hlow
        exact hlow.trans (by dsimp only; omega)
      bit := h.bit }
  refine ⟨_, cs', ?_, hr, hshows, rfl, hkeep⟩
  have hbit : ¬ (blockSize s.mem c.addr &&& s.xBlockAllocatedBit = 0 ∨
      nextFreeBlock s.mem c.addr ≠ 0) := by
    rw [hsize, h.bit, and_allocatedBit hlt, hnext]
    simp
  have hm : andNot (blockSize s.mem c.addr) s.xBlockAllocatedBit = c.size := by
    rw [hsize, h.bit, andNot_allocatedBit hlt]
  have hown : blockSize (setBlockSize s.mem c.addr c.size) c.addr = c.size :=
    blockSize_setBlockSize (by omega)
  have hsum : word (s.xFreeBytesRemaining + c.size) = freeBytes cs' := by
    rw [h.free, ← hfree]
    exact word_of_lt (by omega)
  unfold vPortFree
  simp only [Nat.add_eq_zero_iff, OfNat.ofNat_ne_zero, and_false, if_false, hlink, if_neg hbit,
    hm, hins, Option.map_some, hown, hsum]

end Heap5
