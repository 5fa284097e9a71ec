import LegoTrain.Heap.Free

/-!
# Allocating

* `Shows.unlinked`, `splitBlock_split`, `Unlinked.handOut` : the block is taken off the list, what
  is too much of it goes back, and it gets the mark of the application;
* `pvPortMalloc_of_fits` : a block is handed out whenever one is large enough, and no live block is
  touched;
* `pvPortMalloc_of_not_fits` : otherwise the call does not return.
-/

namespace Heap5

open ByteMem FreeBlocks

variable {xStart e a want w : ℕ} {cs cs' pre post A R : List Cell} {c d r : Cell} {m m' : Mem}
  {s s' : HeapState} {B : List ℕ} {it : ℕ}

/-! ## The wanted size -/

/-- The header, and the bytes asked for, in whole units of 16 bytes. -/
theorem wantedSize_spec (h0 : 0 < want) (h : want < 2 ^ 31) :
    16 ∣ wantedSize want ∧ want + 16 ≤ wantedSize want ∧ wantedSize want < want + 32 := by
  have hmask : ∀ n, n &&& portByteAlignmentMask = n % 16 := fun n =>
    Nat.and_two_pow_sub_one_eq_mod n 4
  have hadd : word (want + 16) = want + 16 := word_of_lt (by omega)
  unfold wantedSize
  simp only [xHeapStructSize_eq, hadd, hmask, portByteAlignment]
  rw [if_pos h0]
  by_cases hr : (want + 16) % 16 = 0
  · rw [if_neg (not_not.2 hr)]
    omega
  · rw [if_pos hr, word_of_lt (by omega)]
    omega

theorem wantedSize_zero : wantedSize 0 = 0 := rfl

/-! ## The walk -/

/-- Every entry but the last leads to another one. -/
theorem exists_next {q : ℕ} {rest : List ℕ} : ∀ {L : List ℕ}, (L ++ q :: rest).IsChain (Links m) →
    ∀ y ∈ L, ∃ z ∈ L ++ q :: rest, nextFreeBlock m y = z
  | [], _, _, hy => absurd hy List.not_mem_nil
  | [x], hc, y, hy => by
    obtain rfl : y = x := by simpa using hy
    exact ⟨q, by simp, (List.isChain_cons_cons.1 hc).1⟩
  | x :: z :: L, hc, y, hy => by
    obtain ⟨hxz, hc⟩ := List.isChain_cons_cons.1 hc
    rcases List.mem_cons.1 hy with rfl | hy
    · exact ⟨z, by simp, hxz⟩
    · obtain ⟨u, hu, hyu⟩ := exists_next (L := z :: L) hc y hy
      exact ⟨u, List.mem_cons_of_mem _ hu, hyu⟩

/-- An entry of the list that does not fit is passed over. -/
theorem Shows.passed (h : Shows xStart s cs) (hl : listedCells cs = A ++ r :: R) (hw : 0 < w)
    (hA : ∀ p ∈ A, ¬ p.Fits w) :
    ∀ y ∈ A.map Cell.addr, blockSize s.mem y < w ∧ nextFreeBlock s.mem y ≠ 0 := by
  have hmem : ∀ p ∈ A ++ r :: R, p ∈ cs ∧ p.listed = true := by
    intro p hp
    rw [← hl] at hp
    exact List.mem_filter.1 hp
  intro y hy
  have hlinks := h.linked.links.tail
  rw [List.tail_cons, hl, List.map_append, List.map_cons] at hlinks
  obtain ⟨z, hz, hyz⟩ := exists_next hlinks y hy
  obtain ⟨p, hp, rfl⟩ := List.mem_map.1 hy
  obtain ⟨hpcs, hpl⟩ := hmem p (List.mem_append_left _ hp)
  rw [← List.map_cons, ← List.map_append] at hz
  obtain ⟨q, hq, rfl⟩ := List.mem_map.1 hz
  refine ⟨?_, ?_⟩
  · rw [h.linked.sizes p (by rw [hl]; exact List.mem_append_left _ hp)]
    cases hm : p.isMark with
    | true =>
      have hroom := h.placed.heap.roomy p hpcs
      simp only [Roomy, hm, if_true] at hroom
      omega
    | false =>
      have hfree : p.use = .free := by
        rcases use_eq_free_or_live hm with hu | hu
        · exact hu
        · simp [Cell.listed, hu] at hpl
      have hno := hA p hp
      simp only [Cell.Fits, hfree, true_and] at hno
      omega
  · rw [hyz]
    exact (h.placed.addr_pos (hmem q hq).1).ne'

/-- The walk ends at the entry `r`, if nothing before it fits. -/
theorem Shows.findBlock_eq (h : Shows xStart s cs) (hl : listedCells cs = A ++ r :: R) (hw : 0 < w)
    (hA : ∀ p ∈ A, ¬ p.Fits w) (hr : w ≤ r.size ∨ nextFreeBlock s.mem r.addr = 0) :
    findBlock s.mem w addresses xStart (nextFreeBlock s.mem xStart) =
      some ((A.map Cell.addr).getLastD xStart, r.addr) := by
  have hlen := h.placed.length_le
  have hlinks := h.linked.links
  rw [hl] at hlen hlinks
  rw [List.map_append, List.map_cons] at hlinks
  have hr' : w ≤ blockSize s.mem r.addr ∨ nextFreeBlock s.mem r.addr = 0 := by
    rwa [h.linked.sizes r (by rw [hl]; simp)]
  refine Heap5.findBlock_eq hr' _ _ _ hlinks (h.passed hl hw hA) ?_
  rw [List.length_map]
  simp only [List.length_append, List.length_cons] at hlen
  omega

/-! ## Taking a block off the list -/

/-- The memory once the entry before the block `c` leads past it. -/
theorem Linked.unlink (hl : Linked xStart m (A ++ c :: R)) (hR : R ≠ [])
    (hit : xStart :: A.map Cell.addr = B ++ [it])
    (hsep : (B ++ it :: c.addr :: R.map Cell.addr).Pairwise Apart) :
    Linked xStart (setNextFreeBlock m it (nextFreeBlock m c.addr)) (A ++ R) := by
  obtain ⟨hic, hB, hRa⟩ := apart_of_pairwise hsep
  have hchain : (B ++ it :: c.addr :: R.map Cell.addr).IsChain (Links m) := by
    have h := hl.links
    rwa [List.map_append, ← List.cons_append, hit, List.append_assoc, List.singleton_append] at h
  have hcR := (List.isChain_cons_cons.1 (List.isChain_split.1 hchain).2).2
  have hfront : ∀ x ∈ xStart :: A.map Cell.addr, x = it ∨ Apart it x := by
    intro x hx
    rw [hit] at hx
    rcases List.mem_append.1 hx with hx | hx
    · exact .inr (hB x hx).1
    · exact .inl (by simpa using hx)
  refine ⟨?_, ?_, ?_⟩
  · rw [List.map_append, ← List.cons_append, hit, List.append_assoc, List.singleton_append]
    refine isChain_relink hchain ?_ ?_
    · exact fun x hx y h => (nextFreeBlock_setNextFreeBlock_apart (hB x hx).1).trans h
    · cases R with
      | nil => exact absurd rfl hR
      | cons r R =>
        obtain ⟨hcr, hrR⟩ := List.isChain_cons_cons.1 hcR
        refine List.isChain_cons_cons.2 ⟨?_, links_keep hrR fun x hx =>
          nextFreeBlock_setNextFreeBlock_apart (hRa x hx).1⟩
        exact (nextFreeBlock_setNextFreeBlock (nextFreeBlock_lt _ _)).trans hcr
  · intro x hx
    rcases List.mem_append.1 hx with hx | hx
    · rw [blockSize_setNextFreeBlock_of
        (hfront _ (List.mem_cons_of_mem _ (List.mem_map_of_mem hx)))]
      exact hl.sizes x (List.mem_append_left _ hx)
    · rw [blockSize_setNextFreeBlock_apart (hRa _ (List.mem_map_of_mem hx)).1]
      exact hl.sizes x (by simp [hx])
  · rw [blockSize_setNextFreeBlock_of (hfront _ List.mem_cons_self)]
    exact hl.start

/-- What holds of the memory between the removal of the free block `c` and its return. -/
structure Unlinked (xStart : ℕ) (s : HeapState) (cs L : List Cell) (m : Mem) : Prop where
  linked : Linked xStart m L
  last : nextFreeBlock m s.pxEnd = 0
  keeps : KeepsLive s.mem m cs

/-- Headers that are not those of live blocks can change, if they are not the last end mark. -/
theorem Unlinked.setHeader {L L' : List Cell} (h : Unlinked xStart s cs L m)
    (hl : Linked xStart m' L') (hlast : ∀ x, s.pxEnd ≤ x → x < s.pxEnd + 8 → m' x = m x)
    (hkeep : KeepsLive m m' cs) : Unlinked xStart s cs L' m' where
  linked := hl
  last := (nextFreeBlock_congr hlast).trans h.last
  keeps := fun d hd x h1 h2 => (hkeep d hd x h1 h2).trans (h.keeps d hd x h1 h2)

theorem Shows.unlinked (h : Shows xStart s (pre ++ c :: post)) (hc : c.use = .free) :
    let prev := ((listedCells pre).map Cell.addr).getLastD xStart
    let m := setNextFreeBlock s.mem prev (nextFreeBlock s.mem c.addr)
    Unlinked xStart s (pre ++ c :: post) (listedCells pre ++ listedCells post) m ∧
      blockSize m c.addr = c.size ∧ nextFreeBlock s.mem prev = c.addr := by
  have hcl : c.listed = true := by simp [Cell.listed, hc]
  have hcmem : c ∈ pre ++ c :: post := by simp
  obtain ⟨k, R, hk, -, -⟩ := h.placed.exists_listed (isMark_of_free hc)
  have hl := h.linked
  rw [listedCells_append, listedCells_cons hcl] at hl
  obtain ⟨B, it, hit⟩ := exists_eq_concat xStart ((listedCells pre).map Cell.addr)
  have hsep := h.placed.apart_listed
  rw [hit, List.append_assoc, List.singleton_append] at hsep
  have hic := (apart_of_pairwise hsep).1
  have hitmem : it ∈ xStart :: (listedCells pre).map Cell.addr := by
    rw [hit]
    simp
  have hnext : nextFreeBlock s.mem it = c.addr := by
    have hlinks := hl.links
    rw [List.map_append, ← List.cons_append, hit, List.append_assoc, List.singleton_append] at hlinks
    exact (List.isChain_cons_cons.1 (List.isChain_split.1 hlinks).2).1
  -- the header that changes is in front of the block, and not that of a live one
  have houtside : ∀ d ∈ pre ++ c :: post, c.addr < d.addr → ∀ x, d.addr ≤ x → x < d.addr + 8 →
      Outside it x := by
    intro d hd hcd x h1 h2
    rcases List.mem_cons.1 hitmem with rfl | hmap
    · exact h.placed.outside_start_header hd h1 h2
    · obtain ⟨p, hp, rfl⟩ := List.mem_map.1 hmap
      have hpre : p ∈ pre := (List.mem_filter.1 hp).1
      have hpc := h.placed.addr_lt_of_mem hpre
      exact h.placed.outside_header (by simp [hpre]) hd (by omega) h1 h2
  rw [getLastD_of_cons_eq hit]
  refine ⟨⟨hl.unlink (by simp [hk]) hit hsep, ?_, ?_⟩, ?_, hnext⟩
  · rw [← h.last]
    refine nextFreeBlock_congr fun x h1 h2 => setNextFreeBlock_outside ?_
    exact houtside _ h.placed.exists_end (h.placed.addr_lt_end hcmem (isMark_of_free hc)) x h1 h2
  · intro d hd x h1 h2
    refine setNextFreeBlock_outside ?_
    rcases List.mem_cons.1 hitmem with rfl | hmap
    · exact h.placed.outside_start hd h1 h2
    · obtain ⟨p, hp, rfl⟩ := List.mem_map.1 hmap
      obtain ⟨hpre, hpl⟩ := List.mem_filter.1 hp
      refine h.placed.outside_of_live (by simp [hpre]) hd ?_ h1 h2
      rintro rfl
      simp [Cell.listed, (mem_liveCells.1 hd).2] at hpl
  · rw [blockSize_setNextFreeBlock_apart hic]
    exact h.linked.sizes c (List.mem_filter.2 ⟨hcmem, hcl⟩)

/-! ## Splitting the block -/

/-- A header inside a free block is outside the live ones. -/
theorem Placed.outside_inside (h : Placed xStart e cs) (hc : c ∈ cs) (hfree : c.use = .free)
    {p : ℕ} (hp : c.addr ≤ p) (hp' : p + 8 ≤ c.stop) (hd : d ∈ liveCells cs) {x : ℕ}
    (h1 : d.addr ≤ x) (h2 : x < d.stop) : Outside p x := by
  have hcm := isMark_of_free hfree
  have hdm := Placed.not_mark_of_live hd
  unfold Cell.stop at h2 hp'
  unfold Outside
  rcases h.disjoint_or_eq hc (mem_liveCells.1 hd).1 with rfl | hb | hb
  · simp [(mem_liveCells.1 hd).2] at hfree
  · unfold Before at hb
    rw [extent_of_block hcm] at hb
    omega
  · unfold Before at hb
    rw [extent_of_block hdm] at hb
    omega

theorem Placed.cut (h : Placed xStart e (pre ++ c :: post)) (hc : c.use = .free) (hw : 16 ≤ w)
    (hrest : w + 16 ≤ c.size) (halign : 16 ∣ w) : Placed xStart e (cutBlock pre post c w) where
  heap := h.heap.cut (isMark_of_free hc) hw hrest
  usable := fun x hx => h.usable x (covered_cut (isMark_of_free hc) (by omega) hx)
  aligned := by
    have hal := h.aligned
    simp only [cutBlock, List.forall_mem_append, List.forall_mem_cons] at hal ⊢
    exact ⟨⟨hal.1, hal.2.1, by simp⟩, Nat.dvd_add hal.2.1 halign, hal.2.2⟩
  small := by
    have hsmall := h.small
    simp only [cutBlock, bytes_append, bytes_cons, Cell.front, Cell.rest] at hsmall ⊢
    have hnil : bytes [] = 0 := rfl
    omega
  start := h.start

theorem listedCells_cutBlock :
    listedCells (cutBlock pre post c w) = listedCells pre ++ listedCells post := by
  rw [cutBlock, listedCells_of_live _ _ rfl, listedCells_append, listedCells_cons_of_not rfl]
  simp [listedCells]

theorem front_mem_cutBlock : c.front w ∈ liveCells (cutBlock pre post c w) :=
  mem_liveCells.2 ⟨by simp [cutBlock], rfl⟩

theorem rest_mem_cutBlock : c.rest w ∈ liveCells (cutBlock pre post c w) :=
  mem_liveCells.2 ⟨by simp [cutBlock], rfl⟩

theorem splitBlock_whole (hsize : blockSize m c.addr = c.size) (hw : w ≤ c.size)
    (hs : c.size ≤ w + 32) (hlt : c.size < 2 ^ 31) : splitBlock xStart e m c.addr w = some m := by
  have hmin : heapMinimumBlockSize = 32 := by decide
  unfold splitBlock
  rw [hsize, sub_of_le hw (by omega), if_neg (by omega)]

/-- The memory once the headers of the two parts have their sizes. -/
theorem Unlinked.cut (hm : Unlinked xStart s (pre ++ c :: post) (listedCells pre ++ listedCells post) m)
    (h : Shows xStart s (pre ++ c :: post)) (hc : c.use = .free) (hw : 16 ≤ w) (halign : 16 ∣ w)
    (hs : w + 32 < c.size) :
    let m' := setBlockSize (setBlockSize m (c.addr + w) (c.size - w)) c.addr w
    Unlinked xStart s (pre ++ c :: post) (listedCells (cutBlock pre post c w)) m' ∧
      blockSize m' c.addr = w ∧ blockSize m' (c.addr + w) = c.size - w := by
  have hcmem : c ∈ pre ++ c :: post := by simp
  have hlt := h.placed.size_lt hcmem
  have hcut := h.placed.cut hc hw (by omega) halign
  have happ : Apart c.addr (c.addr + w) := .inl (by omega)
  have hout : ∀ x, Outside c.addr x → Outside (c.addr + w) x →
      setBlockSize (setBlockSize m (c.addr + w) (c.size - w)) c.addr w x = m x := by
    intro x h1 h2
    rw [setBlockSize_outside h1, setBlockSize_outside h2]
  have hlinked := hm.linked
  rw [← listedCells_cutBlock (w := w) (c := c)] at hlinked
  refine ⟨hm.setHeader ?_ ?_ ?_, blockSize_setBlockSize (by omega), ?_⟩
  · refine hcut.linked_of_header front_mem_cutBlock ?_ fun x => setBlockSize_outside
    exact hcut.linked_of_header rest_mem_cutBlock hlinked fun x => setBlockSize_outside
  · have hend := hcut.exists_end
    intro x h1 h2
    refine hout x ?_ ?_
    · have hae := hcut.addr_lt_end (mem_liveCells.1 front_mem_cutBlock).1 rfl
      exact hcut.outside_header (mem_liveCells.1 front_mem_cutBlock).1 hend hae.ne h1 h2
    · have hae := hcut.addr_lt_end (mem_liveCells.1 rest_mem_cutBlock).1 rfl
      exact hcut.outside_header (mem_liveCells.1 rest_mem_cutBlock).1 hend hae.ne h1 h2
  · intro d hd x h1 h2
    have hstop : c.stop = c.addr + c.size := rfl
    exact hout x (h.placed.outside_inside hcmem hc le_rfl (by omega) hd h1 h2)
      (h.placed.outside_inside hcmem hc (by omega) (by omega) hd h1 h2)
  · rw [blockSize_setBlockSize_apart happ, blockSize_setBlockSize (by omega)]

/-- The rest of the block goes back to the list. -/
theorem splitBlock_split (h : Shows xStart s (pre ++ c :: post)) (hc : c.use = .free)
    (hm : Unlinked xStart s (pre ++ c :: post) (listedCells pre ++ listedCells post) m)
    (hsize : blockSize m c.addr = c.size) (hw : 16 ≤ w) (halign : 16 ∣ w)
    (hs : w + 32 < c.size) :
    ∃ m', splitBlock xStart s.pxEnd m c.addr w = some m' ∧
      Unlinked xStart s (pre ++ c :: post)
        (listedCells (pre ++ c.front w :: absorb ⟨c.addr + w, c.size - w, .free⟩ post)) m' ∧
      blockSize m' c.addr = w := by
  have hmin : heapMinimumBlockSize = 32 := by decide
  have hcmem : c ∈ pre ++ c :: post := by simp
  have hlt := h.placed.size_lt hcmem
  have hstop : c.stop < 2 ^ 32 := h.placed.stop_lt (isMark_of_free hc)
  have hcut := h.placed.cut hc hw (by omega) halign
  unfold Cell.stop at hstop
  have hnew : word (c.addr + w) = c.addr + w := word_of_lt (by omega)
  obtain ⟨hm2, hfront, hrest⟩ := hm.cut h hc hw halign hs
  obtain ⟨m3, hins, hlinked, hout⟩ := hcut.insert (released_rest pre post c w) hm2.linked (by
    intro d hd hda
    rw [hcut.eq_of_addr hd (mem_liveCells.1 rest_mem_cutBlock).1 hda, hrest]
    rfl)
  -- a header that is not in the list, or behind the rest, is as before
  have hkeep : ∀ k ∈ cutBlock pre post c w, k.addr ≠ c.addr + w →
      (∀ d ∈ listedCells (cutBlock pre post c w), d.addr < c.addr + w → d.addr ≠ k.addr) →
      ∀ x, k.addr ≤ x → x < k.addr + 8 →
        m3 x = setBlockSize (setBlockSize m (c.addr + w) (c.size - w)) c.addr w x := by
    intro k hk hne hdk x h1 h2
    refine hout x (hcut.outside_start_header hk h1 h2)
      (hcut.outside_header (mem_liveCells.1 rest_mem_cutBlock).1 hk (Ne.symm hne) h1 h2) ?_
    exact fun d hd hda => hcut.outside_header (List.mem_filter.1 hd).1 hk (hdk d hd hda) h1 h2
  have hlive : ∀ d ∈ listedCells (cutBlock pre post c w), d.addr ≠ c.addr := by
    intro d hd hda
    obtain ⟨hdmem, hdl⟩ := List.mem_filter.1 hd
    rw [hcut.eq_of_addr hdmem (mem_liveCells.1 front_mem_cutBlock).1 hda] at hdl
    simp [Cell.listed, Cell.front] at hdl
  refine ⟨m3, ?_, hm2.setHeader hlinked ?_ ?_, ?_⟩
  · unfold splitBlock
    rw [hsize, sub_of_le (by omega) (by omega), if_pos (by omega), hnew]
    exact hins
  · have hae := hcut.addr_lt_end (mem_liveCells.1 rest_mem_cutBlock).1 rfl
    have hrestaddr : (c.rest w).addr = c.addr + w := rfl
    exact hkeep _ hcut.exists_end (by dsimp only; omega) fun d _ hda => by dsimp only; omega
  · intro d hd x h1 h2
    have hstop : c.stop = c.addr + c.size := rfl
    refine hout x (h.placed.outside_start hd h1 h2)
      (h.placed.outside_inside hcmem hc (by omega) (by omega) hd h1 h2) ?_
    intro k hk _
    rw [listedCells_cutBlock, ← listedCells_append] at hk
    obtain ⟨hkmem, hkl⟩ := List.mem_filter.1 hk
    refine h.placed.outside_of_live (by simp at hkmem ⊢; tauto) hd ?_ h1 h2
    rintro rfl
    simp [Cell.listed, (mem_liveCells.1 hd).2] at hkl
  · rw [← hfront]
    refine blockSize_congr (hkeep (c.front w) (mem_liveCells.1 front_mem_cutBlock).1 ?_ ?_)
    · have haddr : (c.front w).addr = c.addr := rfl
      omega
    · exact fun d hd _ => hlive d hd

/-! ## Handing the block out -/

/-- The state once the block at `a` has been handed out. -/
def handOut (s : HeapState) (m : Mem) (a : ℕ) : HeapState :=
  let xFreeBytesRemaining := sub s.xFreeBytesRemaining (blockSize m a)
  let m' := setBlockSize m a (blockSize m a ||| s.xBlockAllocatedBit)
  { s with
    mem := setNextFreeBlock m' a 0
    xFreeBytesRemaining := xFreeBytesRemaining
    xMinimumEverFreeBytesRemaining :=
      if xFreeBytesRemaining < s.xMinimumEverFreeBytesRemaining then xFreeBytesRemaining
      else s.xMinimumEverFreeBytesRemaining
    xNumberOfSuccessfulAllocations := word (s.xNumberOfSuccessfulAllocations + 1) }

theorem takeBlock_eq {prev : ℕ} (hprev : nextFreeBlock s.mem prev = a)
    (hsplit : splitBlock xStart s.pxEnd (setNextFreeBlock s.mem prev (nextFreeBlock s.mem a)) a w =
      some m) :
    takeBlock xStart s prev a w = some (word (a + 16), handOut s m a) := by
  simp only [takeBlock, hsplit, Option.map_some, hprev, xHeapStructSize_eq]
  rfl

theorem handOut_outside {x : ℕ} (h : Outside a x) : (handOut s m a).mem x = m x := by
  simp only [handOut]
  rw [setNextFreeBlock_outside h, setBlockSize_outside h]

/-- A block that is taken was free, and the others are live as before. -/
theorem Taken.live_cases {slack : ℕ} (ht : Taken w slack cs a cs') (hd : d ∈ liveCells cs') :
    d.addr = a ∨ d ∈ liveCells cs := by
  obtain ⟨l, r, n, hcs, hcs', -, -⟩ := ht.liveCells
  rw [hcs'] at hd
  rw [hcs]
  rcases List.mem_append.1 hd with hd | hd
  · exact .inr (List.mem_append_left _ hd)
  rcases List.mem_cons.1 hd with rfl | hd
  · exact .inl rfl
  · exact .inr (List.mem_append_right _ hd)

theorem Placed.freeBytes_taken {slack : ℕ} (h : Placed xStart e cs) (ht : Taken w slack cs a cs')
    (h' : Placed xStart e cs') (hc : c ∈ liveCells cs') (ha : c.addr = a) :
    freeBytes cs = freeBytes cs' + c.size := by
  obtain ⟨l, r, n, hcs, hcs', -, -⟩ := ht.liveCells
  have hmem : (⟨a, n, .live⟩ : Cell) ∈ cs' :=
    (mem_liveCells.1 (show _ ∈ liveCells cs' by rw [hcs']; simp)).1
  have hn : c = ⟨a, n, .live⟩ := h'.eq_of_addr (mem_liveCells.1 hc).1 hmem ha
  have hsize : c.size = n := congrArg Cell.size hn
  have hsum := freeBytes_add_liveBytes h.heap.roomy
  have hsum' := freeBytes_add_liveBytes h'.heap.roomy
  rw [hcs, bytes_append] at hsum
  rw [hcs', bytes_append, bytes_cons, ht.bytes] at hsum'
  dsimp only at hsum'
  omega

/-- The heap once the block has been handed out. -/
theorem Unlinked.handOut {slack : ℕ} (hm : Unlinked xStart s cs (listedCells cs') m)
    (h : Shows xStart s cs) (ht : Taken w slack cs a cs') (h' : Placed xStart s.pxEnd cs')
    (hc : c ∈ liveCells cs') (ha : c.addr = a) (hsize : blockSize m a = c.size)
    (hin : ∀ d ∈ liveCells cs, ∀ x, d.addr ≤ x → x < d.stop → Outside a x) :
    Shows xStart (handOut s m a) cs' ∧ KeepsLive s.mem (Heap5.handOut s m a).mem cs := by
  have hkeep : KeepsLive s.mem (Heap5.handOut s m a).mem cs := by
    intro d hd x h1 h2
    rw [handOut_outside (hin d hd x h1 h2)]
    exact hm.keeps d hd x h1 h2
  have hlt := h'.size_lt (mem_liveCells.1 hc).1
  have hfree := h.placed.freeBytes_taken ht h' hc ha
  have hsmall := (freeBytes_le_bytes h.placed).trans_lt h.placed.small
  have hremain : sub s.xFreeBytesRemaining (blockSize m a) = freeBytes cs' := by
    rw [hsize, h.free, sub_of_le (by omega) (by omega)]
    omega
  refine ⟨?_, hkeep⟩
  exact
    { placed := h'
      linked := by
        subst ha
        exact h'.linked_of_header hc hm.linked fun x hx => handOut_outside hx
      last := by
        have hend := h'.exists_end
        have hae := h'.addr_lt_end (mem_liveCells.1 hc).1 (Placed.not_mark_of_live hc)
        subst ha
        refine Eq.trans (nextFreeBlock_congr fun x h1 h2 => handOut_outside ?_) hm.last
        exact h'.outside_header (mem_liveCells.1 hc).1 hend hae.ne h1 h2
      live := by
        intro d hd hdlive
        have hdmem := mem_liveCells.2 ⟨hd, hdlive⟩
        rcases Taken.live_cases ht hdmem with hda | hold
        · obtain rfl : d = c := h'.eq_of_addr hd (mem_liveCells.1 hc).1 (hda.trans ha.symm)
          subst hda
          simp only [Heap5.handOut]
          rw [nextFreeBlock_setNextFreeBlock (by decide), blockSize_setNextFreeBlock,
            blockSize_setBlockSize (by rw [hsize, h.bit, or_allocatedBit hlt]; omega), hsize, h.bit,
            or_allocatedBit hlt]
          exact ⟨rfl, rfl⟩
        · obtain ⟨hn, hs⟩ := hkeep.header h.placed hold
          rw [hn, hs]
          exact h.live d (mem_liveCells.1 hold).1 hdlive
      free := hremain
      low := by
        simp only [Heap5.handOut]
        split
        · exact le_rfl
        · omega
      bit := h.bit }

/-! ## `pvPortMalloc` -/

theorem le_freeBytes (hc : c ∈ cs) (hfree : c.use = .free) : c.size ≤ freeBytes cs := by
  obtain ⟨pre, post, rfl⟩ := List.append_of_mem hc
  have hcons : freeBytes (c :: post) = c.size + freeBytes post := by simp [freeBytes, hfree]
  rw [freeBytes_append, hcons]
  omega

/-- The walk finds the first block that fits. -/
theorem Shows.findBlock_fits (h : Shows xStart s (pre ++ c :: post)) (hw : 0 < w)
    (hpre : ∀ p ∈ pre, ¬ p.Fits w) (hc : c.Fits w) :
    findBlock s.mem w addresses xStart (nextFreeBlock s.mem xStart) =
      some (((listedCells pre).map Cell.addr).getLastD xStart, c.addr) := by
  have hcl : c.listed = true := by simp [Cell.listed, hc.1]
  have hl : listedCells (pre ++ c :: post) = listedCells pre ++ c :: listedCells post := by
    rw [listedCells_append, listedCells_cons hcl]
  exact h.findBlock_eq hl hw (fun p hp => hpre p (List.mem_filter.1 hp).1) (.inl hc.2)

/-- The walk ends at the last end mark when no block fits. -/
theorem Shows.findBlock_none (h : Shows xStart s cs) (hw : 0 < w) (hno : ∀ p ∈ cs, ¬ p.Fits w) :
    ∃ prev, findBlock s.mem w addresses xStart (nextFreeBlock s.mem xStart) =
      some (prev, s.pxEnd) := by
  obtain ⟨body, rfl⟩ := h.placed.heap.ended
  have hl : listedCells (body ++ [(⟨s.pxEnd, 0, .mark true⟩ : Cell)]) =
      listedCells body ++ ⟨s.pxEnd, 0, .mark true⟩ :: [] := by
    rw [listedCells_append, listedCells_cons rfl]
    rfl
  refine ⟨_, h.findBlock_eq hl hw (fun p hp => ?_) (.inr h.last)⟩
  exact hno p (List.mem_append_left _ (List.mem_filter.1 hp).1)

/-- A block that fits is handed out. -/
theorem Shows.takeBlock_spec (h : Shows xStart s cs) (hw : 32 ≤ w) (halign : 16 ∣ w)
    (hfit : ∃ c ∈ cs, c.Fits w) :
    ∃ s' a cs' prev, findBlock s.mem w addresses xStart (nextFreeBlock s.mem xStart) =
        some (prev, a) ∧ a < s.pxEnd ∧ takeBlock xStart s prev a w = some (a + 16, s') ∧
      Taken w 32 cs a cs' ∧ Shows xStart s' cs' ∧ s'.pxEnd = s.pxEnd ∧
      KeepsLive s.mem s'.mem cs := by
  obtain ⟨a, cs', ht⟩ := exists_taken hfit 32
  have hplaced := h.placed.taken ht (by omega) (by decide) halign
  have ht' := ht
  cases ht with
  | @whole pre post c hpre hc hs =>
    have hcmem : c ∈ pre ++ c :: post := by simp
    have hlt := h.placed.size_lt hcmem
    have hae := h.placed.addr_lt_end hcmem (isMark_of_free hc.1)
    have hstop : c.stop < 2 ^ 32 := h.placed.stop_lt (isMark_of_free hc.1)
    obtain ⟨hm, hsize, hprev⟩ := h.unlinked hc.1
    have hcs' : c.stop = c.addr + c.size := rfl
    have hle := hc.2
    have hlist : listedCells (pre ++ { c with use := .live } :: post) =
        listedCells pre ++ listedCells post := listedCells_of_live _ _ rfl
    rw [← hlist] at hm
    obtain ⟨hshows, hkeep⟩ := hm.handOut h ht' hplaced
      (c := { c with use := .live }) (mem_liveCells.2 ⟨by simp, rfl⟩) rfl hsize
      (fun d hd x h1 h2 => h.placed.outside_inside hcmem hc.1 le_rfl (by omega) hd h1 h2)
    refine ⟨_, _, _, _, h.findBlock_fits (by omega) hpre hc, hae, ?_, ht', hshows, rfl, hkeep⟩
    rw [takeBlock_eq hprev (splitBlock_whole hsize hc.2 hs hlt), word_of_lt (by omega)]
  | @split pre post c hpre hc hs =>
    have hcmem : c ∈ pre ++ c :: post := by simp
    have hae := h.placed.addr_lt_end hcmem (isMark_of_free hc.1)
    have hstop : c.stop < 2 ^ 32 := h.placed.stop_lt (isMark_of_free hc.1)
    obtain ⟨hm, hsize, hprev⟩ := h.unlinked hc.1
    have hcs' : c.stop = c.addr + c.size := rfl
    obtain ⟨m', hsplit, hm', hsize'⟩ := splitBlock_split h hc.1 hm hsize (by omega) halign hs
    obtain ⟨hshows, hkeep⟩ := hm'.handOut h ht' hplaced
      (c := c.front w) (mem_liveCells.2 ⟨by simp [Cell.front], rfl⟩) rfl hsize'
      (fun d hd x h1 h2 => h.placed.outside_inside hcmem hc.1 le_rfl (by omega) hd h1 h2)
    refine ⟨_, _, _, _, h.findBlock_fits (by omega) hpre hc, hae, ?_, ht', hshows, rfl, hkeep⟩
    rw [takeBlock_eq hprev hsplit, word_of_lt (by omega)]

/-- Something is allocated when a block fits. -/
theorem pvPortMalloc_of_fits (h : Shows xStart s cs) (h0 : 0 < want) (hlt : want < 2 ^ 31)
    (hfit : ∃ c ∈ cs, c.Fits (wantedSize want)) :
    ∃ s' a cs', pvPortMalloc xStart s want = some (a + 16, s') ∧
      Taken (wantedSize want) 32 cs a cs' ∧ Shows xStart s' cs' ∧ s'.pxEnd = s.pxEnd ∧
      KeepsLive s.mem s'.mem cs := by
  obtain ⟨halign, hle, hge⟩ := wantedSize_spec h0 hlt
  obtain ⟨s', a, cs', prev, hfind, hae, htake, ht, hshows, hend, hkeep⟩ :=
    h.takeBlock_spec (by omega) halign hfit
  have hend0 : s.pxEnd ≠ 0 := by omega
  have hbit : want &&& s.xBlockAllocatedBit = 0 := by
    rw [h.bit]
    exact and_allocatedBit_of_lt hlt
  have hroom : wantedSize want > 0 ∧ wantedSize want ≤ s.xFreeBytesRemaining := by
    obtain ⟨c, hc, hfree, hsize⟩ := hfit
    have hbytes := le_freeBytes hc hfree
    rw [h.free]
    omega
  have halloc : allocate xStart s want = some (a + 16, s') := by
    simp only [allocate, hbit, if_true, if_pos hroom, hfind, Option.bind_some, ne_eq, hae.ne,
      not_false_eq_true, htake]
  refine ⟨s', a, cs', ?_, ht, hshows, hend, hkeep⟩
  simp only [pvPortMalloc, if_neg hend0, halloc, Nat.add_eq_zero_iff, OfNat.ofNat_ne_zero,
    and_false, if_false]

/-- Nothing is allocated when no block fits: the call does not return. -/
theorem pvPortMalloc_of_not_fits (h : Shows xStart s cs)
    (hno : want = 0 ∨ 2 ^ 31 ≤ want ∨ ∀ c ∈ cs, ¬ c.Fits (wantedSize want)) (hlt : want < 2 ^ 32) :
    pvPortMalloc xStart s want = none := by
  have halloc : allocate xStart s want = some (0, s) := by
    unfold allocate
    rcases hno with rfl | hlarge | hno
    · have hzero : ¬ (wantedSize 0 > 0 ∧ wantedSize 0 ≤ s.xFreeBytesRemaining) :=
        fun h => absurd h.1 (Nat.lt_irrefl 0)
      simp only [if_neg hzero, ite_self]
    · obtain ⟨n, rfl⟩ := Nat.exists_eq_add_of_le' hlarge
      have hbit : (n + 2 ^ 31) &&& s.xBlockAllocatedBit = 2 ^ 31 := by
        rw [h.bit]
        exact and_allocatedBit (by omega)
      rw [hbit, if_neg (by decide)]
    · by_cases hroom : wantedSize want > 0 ∧ wantedSize want ≤ s.xFreeBytesRemaining
      · obtain ⟨prev, hfind⟩ := h.findBlock_none hroom.1 hno
        simp only [if_pos hroom, hfind, Option.bind_some, ne_eq, not_true_eq_false, if_false,
          ite_self]
      · simp only [if_neg hroom, ite_self]
  simp only [pvPortMalloc, halloc, if_true, ite_self]

end Heap5
