import Mathlib.Data.Finset.Card
import LegoTrain.Heap.FreeList

/-!
# Giving a block back to the list

`Placed` says where the cells of a heap may be in memory.  `Placed.insert` :
`prvInsertBlockIntoFreeList` does to the list what `Released` does to the cells, and writes into
no header but that of the block and those before it.
-/

namespace Heap5

open ByteMem FreeBlocks

/-! ## Where the cells are -/

/-- An address of the heap: not `NULL`, and not in `xStart`. -/
def Usable (xStart x : ℕ) : Prop := 0 < x ∧ x < 2 ^ 32 ∧ Outside xStart x

/-- The cells are those of a heap in memory. -/
structure Placed (xStart e : ℕ) (cs : List Cell) : Prop where
  heap : Heap 16 e cs
  usable : ∀ x, Covered 16 cs x → Usable xStart x
  aligned : ∀ c ∈ cs, 16 ∣ c.addr
  small : bytes cs < 2 ^ 31
  start : xStart + 8 ≤ 2 ^ 32

variable {xStart e a want slack : ℕ} {cs cs' pre post : List Cell} {c d k : Cell} {m m' : Mem}

theorem Placed.released (h : Placed xStart e cs) (hr : Released cs a cs') : Placed xStart e cs' where
  heap := hr.heap h.heap
  usable := fun x hx => h.usable x (hr.covered h.heap hx)
  aligned := hr.forall_addr h.aligned
  small := by
    rw [hr.bytes]
    exact h.small
  start := h.start

theorem Placed.taken (h : Placed xStart e cs) (ht : Taken want slack cs a cs') (hwant : 16 ≤ want)
    (hslack : 16 ≤ slack) (halign : 16 ∣ want) : Placed xStart e cs' where
  heap := ht.heap h.heap hwant hslack
  usable := fun x hx => h.usable x (ht.covered h.heap hwant hslack hx)
  aligned := ht.forall_addr h.aligned fun _ hn => Nat.dvd_add hn halign
  small := by
    rw [ht.bytes]
    exact h.small
  start := h.start

theorem Placed.usable_of_mem (h : Placed xStart e cs) (hc : c ∈ cs) {x : ℕ} (h1 : c.addr ≤ x)
    (h2 : x < c.addr + c.extent 16) : Usable xStart x :=
  h.usable x ⟨c, hc, h1, h2⟩

theorem Placed.header_le (h : Placed xStart e cs) (hc : c ∈ cs) : 16 ≤ c.extent 16 :=
  h.heap.hdr_le_extent hc

theorem Placed.addr_pos (h : Placed xStart e cs) (hc : c ∈ cs) : 0 < c.addr := by
  have hle := h.header_le hc
  exact (h.usable_of_mem hc le_rfl (by omega)).1

theorem Placed.end_le (h : Placed xStart e cs) (hc : c ∈ cs) : c.addr + c.extent 16 ≤ 2 ^ 32 := by
  have hle := h.header_le hc
  have hlast := (h.usable_of_mem hc (x := c.addr + c.extent 16 - 1) (by omega) (by omega)).2.1
  omega

theorem Placed.addr_lt (h : Placed xStart e cs) (hc : c ∈ cs) : c.addr < 2 ^ 32 := by
  have hle := h.header_le hc
  have hend := h.end_le hc
  omega

theorem Placed.apart_start (h : Placed xStart e cs) (hc : c ∈ cs) : Apart xStart c.addr := by
  have hle := h.header_le hc
  have hfirst := (h.usable_of_mem hc le_rfl (by omega)).2.2
  by_contra hno
  have hin := (h.usable_of_mem hc (x := xStart) (by unfold Outside Apart at *; omega)
    (by unfold Outside Apart at *; omega)).2.2
  unfold Outside at hin
  omega

theorem Before.apart (h : Before 16 c d) (hc : 16 ≤ c.extent 16) : Apart c.addr d.addr := by
  unfold Before at h
  unfold Apart
  omega

/-- The headers of the heap do not overlap. -/
theorem Placed.apart (h : Placed xStart e cs) :
    (xStart :: cs.map Cell.addr).Pairwise Apart := by
  refine List.pairwise_cons.2 ⟨?_, ?_⟩
  · simpa using fun c hc => h.apart_start hc
  · refine List.pairwise_map.2 (h.heap.disjoint.imp_of_mem ?_)
    exact fun hc _ hb => Before.apart hb (h.header_le hc)

theorem Placed.before (h : Placed xStart e (pre ++ c :: post)) (hd : d ∈ pre) : Before 16 d c :=
  (List.pairwise_append.1 h.heap.disjoint).2.2 d hd c List.mem_cons_self

theorem Placed.addr_lt_of_mem (h : Placed xStart e (pre ++ c :: post)) (hd : d ∈ pre) :
    d.addr < c.addr := by
  have hb := h.before hd
  have hle := h.header_le (c := d) (by simp [hd])
  unfold Before at hb
  omega

theorem Placed.after (h : Placed xStart e (pre ++ c :: post)) (hd : d ∈ post) : Before 16 c d :=
  List.rel_of_pairwise_cons (List.pairwise_append.1 h.heap.disjoint).2.1 hd

/-- The list of the free blocks is shorter than the memory. -/
theorem Placed.length_le (h : Placed xStart e cs) : (listedCells cs).length ≤ addresses := by
  have hnodup : ((listedCells cs).map Cell.addr).Nodup := by
    have hpair := (List.pairwise_cons.1 h.apart).2.imp fun hab => Apart.ne hab
    exact hpair.sublist (List.filter_sublist.map _)
  have hsub : ((listedCells cs).map Cell.addr).toFinset ⊆ Finset.range addresses := by
    intro x hx
    obtain ⟨c, hc, rfl⟩ := List.mem_map.1 (List.mem_toFinset.1 hx)
    exact Finset.mem_range.2 (h.addr_lt (List.mem_filter.1 hc).1)
  have hcard := Finset.card_le_card hsub
  rwa [List.toFinset_card_of_nodup hnodup, Finset.card_range, List.length_map] at hcard

/-- Behind a block there is an entry of the list, and more than one if it is not the last end
mark. -/
theorem Placed.exists_listed (h : Placed xStart e (pre ++ c :: post)) (hc : c.isMark = false) :
    ∃ k R, listedCells post = k :: R ∧ k ∈ post ∧ (k.addr ≠ e → R ≠ []) := by
  obtain ⟨body, rfl⟩ := h.heap.ended_tail hc
  have hlast : listedCells (body ++ [(⟨e, 0, .mark true⟩ : Cell)]) =
      listedCells body ++ [⟨e, 0, .mark true⟩] := by
    rw [listedCells_append, listedCells_cons rfl]
    rfl
  cases hb : listedCells body with
  | nil => exact ⟨_, [], by rw [hlast, hb]; rfl, by simp, fun hne => absurd rfl hne⟩
  | cons k R =>
    have hmem : k ∈ body := (List.mem_filter.1 (hb ▸ List.mem_cons_self : k ∈ listedCells body)).1
    exact ⟨k, R ++ [⟨e, 0, .mark true⟩], by rw [hlast, hb]; rfl, by simp [hmem], by simp⟩

/-! ## `prvInsertBlockIntoFreeList` -/

theorem word_of_lt {n : ℕ} (h : n < 2 ^ 32) : word n = n := Nat.mod_eq_of_lt h

theorem getLastD_of_cons_eq {L B : List ℕ} {x y : ℕ} (h : x :: L = B ++ [y]) :
    L.getLastD x = y := by
  have hlast := congrArg List.getLast? h
  simpa [List.getLast?_cons, List.getLastD_eq_getLast?] using hlast

/-- The list in front of a block ends before it, so that the loop stops there. -/
theorem Placed.prvInsert_eq (h : Placed xStart e (pre ++ c :: post)) (hc : c.use = .live)
    (hl : Linked xStart m (listedCells (pre ++ c :: post))) :
    prvInsertBlockIntoFreeList xStart e m c.addr =
      some (insertAfter e m (((listedCells pre).map Cell.addr).getLastD xStart) c.addr) := by
  obtain ⟨k, R, hk, hkmem, -⟩ := h.exists_listed (isMark_of_live hc)
  have hlist : listedCells (pre ++ c :: post) = listedCells pre ++ k :: R := by
    rw [listedCells_append, listedCells_cons_of_not (by simp [Cell.listed, hc]), hk]
  have hlinks := hl.links
  rw [hlist, List.map_append, List.map_cons] at hlinks
  have hkc := h.after hkmem
  have hlen := h.length_le
  rw [hlist] at hlen
  unfold prvInsertBlockIntoFreeList
  rw [insertionPoint_eq (n := k.addr) ?_ _ _ _ hlinks ?_ ?_]
  · rfl
  · unfold Before at hkc
    omega
  · intro y hy
    obtain ⟨p, hp, rfl⟩ := List.mem_map.1 hy
    exact h.addr_lt_of_mem (List.mem_filter.1 hp).1
  · simp only [List.length_append, List.length_cons, List.length_map] at hlen ⊢
    omega

/-- No entry in front of a block touches it, unless the cell before the block is free. -/
theorem Placed.not_touching (h : Placed xStart e (pre ++ c :: post))
    (hl : Linked xStart m (listedCells pre ++ listedCells post))
    (hpre : ∀ p ∈ pre.getLast?, p.use ≠ .free) :
    ∀ y ∈ xStart :: (listedCells pre).map Cell.addr, word (y + blockSize m y) ≠ c.addr := by
  have hcmem : c ∈ pre ++ c :: post := by simp
  have hc := h.addr_lt hcmem
  intro y hy
  rcases List.mem_cons.1 hy with rfl | hy
  · have hstart := h.start
    rw [hl.start, Nat.add_zero, word_of_lt (by omega)]
    exact (h.apart_start hcmem).ne
  · obtain ⟨p, hp, rfl⟩ := List.mem_map.1 hy
    have hpmem : p ∈ pre := (List.mem_filter.1 hp).1
    have hlisted : p.listed = true := (List.mem_filter.1 hp).2
    have hle := h.header_le (c := p) (by simp [hpmem])
    rw [hl.sizes p (List.mem_append_left _ hp)]
    suffices hlt : p.addr + p.size < c.addr by
      rw [word_of_lt (by omega)]
      exact hlt.ne
    cases hm : p.isMark with
    | true =>
      -- an end mark has no bytes
      have hb := h.before hpmem
      have hroom := h.heap.roomy p (by simp [hpmem])
      simp only [Roomy, hm, if_true] at hroom
      unfold Before at hb
      omega
    | false =>
      have hfree : p.use = .free := by
        rcases use_eq_free_or_live hm with hu | hu
        · exact hu
        · simp [Cell.listed, hu] at hlisted
      -- the cell before the block is another one
      rcases List.eq_nil_or_concat pre with rfl | ⟨init, q, rfl⟩
      · simp at hpmem
      rw [List.concat_eq_append] at h hpre hpmem
      have hq : q.use ≠ .free := hpre q (by simp)
      have hpinit : p ∈ init := by
        rcases List.mem_append.1 hpmem with hp | hp
        · exact hp
        · obtain rfl : p = q := by simpa using hp
          exact absurd hfree hq
      have hqc := h.before (d := q) (by simp)
      have hqle := h.header_le (c := q) (by simp)
      have hpq : Before 16 p q := by
        have h' : Placed xStart e (init ++ q :: (c :: post)) := by simpa using h
        exact h'.before hpinit
      unfold Before at hpq hqc
      rw [extent_of_block hm] at hpq
      omega

theorem exists_eq_concat (x : ℕ) (L : List ℕ) : ∃ B y, x :: L = B ++ [y] := by
  rcases List.eq_nil_or_concat (x :: L) with h | ⟨B, y, h⟩
  · simp at h
  · exact ⟨B, y, by rw [h, List.concat_eq_append]⟩

theorem listedCells_of_live (pre post : List Cell) (hc : c.use = .live) :
    listedCells (pre ++ c :: post) = listedCells pre ++ listedCells post := by
  rw [listedCells_append, listedCells_cons_of_not (by simp [Cell.listed, hc])]

/-- The headers of the list and that of the block. -/
theorem Placed.apart_listed (h : Placed xStart e (pre ++ c :: post)) :
    ((xStart :: (listedCells pre).map Cell.addr) ++
      c.addr :: (listedCells post).map Cell.addr).Pairwise Apart := by
  have hsub : (listedCells pre ++ c :: listedCells post).Sublist (pre ++ c :: post) :=
    List.filter_sublist.append (List.filter_sublist.cons_cons c)
  have hsub' := (hsub.map Cell.addr).cons_cons xStart
  rw [List.map_append, List.map_cons, ← List.cons_append] at hsub'
  exact h.apart.sublist hsub'

theorem size_le_bytes (hc : c ∈ cs) : c.size ≤ bytes cs := by
  obtain ⟨pre, post, rfl⟩ := List.append_of_mem hc
  rw [bytes_append, bytes_cons]
  omega

theorem Placed.size_add_lt (h : Placed xStart e (pre ++ c :: post)) (hk : k ∈ post) :
    c.size + k.size < 2 ^ 32 := by
  have hsmall := h.small
  have hle := size_le_bytes hk
  rw [bytes_append, bytes_cons] at hsmall
  omega

theorem Placed.size_add_add_lt (h : Placed xStart e ((pre ++ [d]) ++ c :: post)) (hk : k ∈ post) :
    d.size + c.size + k.size < 2 ^ 32 := by
  have hsmall := h.small
  have hle := size_le_bytes hk
  simp only [bytes_append, bytes_cons] at hsmall
  omega

/-- A block ends before the last end mark. -/
theorem Placed.stop_lt (h : Placed xStart e (pre ++ c :: post)) (hc : c.isMark = false) :
    c.stop < 2 ^ 32 := by
  obtain ⟨k, R, hk, hkmem, -⟩ := h.exists_listed hc
  have hb := h.after hkmem
  have hlt := h.addr_lt (c := k) (by simp [hkmem])
  unfold Before at hb
  rw [extent_of_block hc] at hb
  unfold Cell.stop
  omega

theorem Placed.word_stop (h : Placed xStart e (pre ++ c :: post)) (hc : c.isMark = false) :
    word (c.addr + c.size) = c.stop :=
  word_of_lt (h.stop_lt hc)

/-- What `prvInsertBlockIntoFreeList` does with a live block whose header has lost the mark of
the application: the block is given back, and no header behind it has changed. -/
theorem Placed.insert (h : Placed xStart e cs) (hr : Released cs a cs')
    (hl : Linked xStart m (listedCells cs)) (hsize : ∀ c ∈ cs, c.addr = a → blockSize m a = c.size) :
    ∃ m', prvInsertBlockIntoFreeList xStart e m a = some m' ∧ Linked xStart m' (listedCells cs') ∧
      ∀ x, Outside xStart x → Outside a x →
        (∀ d ∈ listedCells cs, d.addr < a → Outside d.addr x) → m' x = m x := by
  cases hr with
  | @plain pre post c hc hpre =>
    obtain ⟨k, R, hk, hkmem, hR⟩ := h.exists_listed (isMark_of_live hc)
    have heq := h.prvInsert_eq hc hl
    have hlist := listedCells_of_live pre post hc
    rw [hk] at hlist
    have hsep := h.apart_listed
    rw [hk] at hsep
    have hl' := hl
    rw [hlist] at hl'
    obtain ⟨B, it, hit⟩ := exists_eq_concat xStart ((listedCells pre).map Cell.addr)
    have hitmem : it ∈ xStart :: (listedCells pre).map Cell.addr := by
      rw [hit]
      simp
    rw [hit, List.append_assoc, List.singleton_append] at hsep
    have hcsize : blockSize m c.addr = c.size := hsize c (by simp) rfl
    obtain ⟨hlinked, hout⟩ := hl'.insert_plain (e := e) (c := { c with use := .free }) hcsize hit
      hsep (h.size_add_lt hkmem) (h.addr_lt (c := c) (by simp)) hR
      (h.not_touching (by rwa [hk]) hpre it hitmem)
    refine ⟨_, heq, ?_, ?_⟩
    · rw [getLastD_of_cons_eq hit, listedCells_append,
        listedCells_absorb h.heap (by decide) (isMark_of_live hc) hk rfl]
      have hstop : word (c.addr + c.size) = c.stop := h.word_stop (isMark_of_live hc)
      rwa [linkIn, hstop] at hlinked
    · intro x hx ha hd
      rw [getLastD_of_cons_eq hit]
      refine hout x ?_ ha
      rcases List.mem_cons.1 hitmem with rfl | hit
      · exact hx
      · obtain ⟨p, hp, rfl⟩ := List.mem_map.1 hit
        exact hd p (by rw [hlist]; exact List.mem_append_left _ hp)
          (h.addr_lt_of_mem (List.mem_filter.1 hp).1)
  | @merged pre post p c hc hp =>
    have hcs : pre ++ p :: c :: post = (pre ++ [p]) ++ c :: post := by simp
    rw [hcs] at h hl hsize
    obtain ⟨k, R, hk, hkmem, hR⟩ := h.exists_listed (isMark_of_live hc)
    have heq := h.prvInsert_eq hc hl
    have hpl : p.listed = true := by simp [Cell.listed, hp]
    have hpre : listedCells (pre ++ [p]) = listedCells pre ++ [p] := by
      rw [listedCells_append, listedCells_cons hpl]
      rfl
    have hlist := listedCells_of_live (pre ++ [p]) post hc
    rw [hk, hpre, List.append_assoc (listedCells pre), List.singleton_append] at hlist
    have hsep := h.apart_listed
    rw [hk, hpre, List.map_append, ← List.cons_append, List.append_assoc] at hsep
    have hl' := hl
    rw [hlist] at hl'
    have hpstop : p.stop = c.addr := by
      have hchain := h.heap.next
      rw [← hcs] at hchain
      exact (next_of_block (isMark_of_free hp)).1
        (List.isChain_cons_cons.1 (List.isChain_append.1 hchain).2.1).1
    have hpaddr : p.addr + p.size = c.addr := hpstop
    have hstop : word (p.addr + (p.size + c.size)) = c.stop := by
      rw [← Nat.add_assoc, hpaddr]
      exact h.word_stop (isMark_of_live hc)
    obtain ⟨hlinked, hout⟩ := hl'.insert_merged (e := e) (c := c)
      (hsize c (by simp) rfl) hsep (h.size_add_add_lt hkmem) hR
      (by rw [hpaddr]; exact word_of_lt (h.addr_lt (c := c) (by simp)))
    have hit : (((listedCells (pre ++ [p])).map Cell.addr).getLastD xStart) = p.addr := by
      simp [hpre, List.getLastD_eq_getLast?]
    refine ⟨_, heq, ?_, ?_⟩
    · rw [hit, listedCells_append,
        listedCells_absorb h.heap (by decide) (isMark_of_live hc) hk (by exact hp)]
      rwa [linkIn, hstop] at hlinked
    · intro x hx ha hd
      rw [hit]
      exact hout x (hd p (by rw [listedCells_append, listedCells_cons hpl]; simp)
        (h.addr_lt_of_mem (by simp))) ha

end Heap5
