import Mathlib.Algebra.Order.Ring.Int
import Mathlib.Data.List.Chain

/-!
# Heaps that are tiled by their blocks

A heap is one or more regions of memory, each cut into blocks without a gap and closed by an
end mark.  A block is free or live; an end mark may be in the list of the free blocks, and the
last one always is.  Blocks are taken from the first free one that is large enough, which is
split when much is left of it, and a block that is given back is joined with its free
neighbours.

* `Taken`, `Released` : the two operations;
* `Heap` : the invariant of both, `Taken.heap` and `Released.heap`;
* `Heap.disjoint` : no two cells overlap;
* `exists_taken`, `exists_released` : nothing stands in the way of the operations, and
  `Released.exists_fits` : what is given back can be taken again.
-/

namespace FreeBlocks

/-- What a cell is used for. -/
inductive Use
  | free
  | live
  /-- the end of a region; `listed` when it is in the list of the free blocks -/
  | mark (listed : Bool)
  deriving DecidableEq, Repr

/-- A block, or the end mark of a region. -/
structure Cell where
  addr : ℕ
  size : ℕ
  use : Use
  deriving DecidableEq, Repr

namespace Cell

def stop (c : Cell) : ℕ := c.addr + c.size

def isMark (c : Cell) : Bool :=
  match c.use with
  | .mark _ => true
  | _ => false

/-- The cell is in the list of the free blocks. -/
def listed (c : Cell) : Bool :=
  match c.use with
  | .free => true
  | .live => false
  | .mark listed => listed

/-- The bytes that the cell keeps to itself: an end mark has a header only. -/
def extent (hdr : ℕ) (c : Cell) : ℕ := if c.isMark then hdr else c.size

/-- The block is free and has `want` bytes. -/
def Fits (want : ℕ) (c : Cell) : Prop := c.use = .free ∧ want ≤ c.size

instance (want : ℕ) (c : Cell) : Decidable (c.Fits want) := instDecidableAnd

end Cell

/-- `d` can follow `c`: a block without a gap, an end mark at any distance. -/
def Next (hdr : ℕ) (c d : Cell) : Prop :=
  if c.isMark then c.addr + hdr ≤ d.addr else c.stop = d.addr

/-- A block has room for a header, and an end mark has no bytes. -/
def Roomy (hdr : ℕ) (c : Cell) : Prop := if c.isMark then c.size = 0 else hdr ≤ c.size

/-- Not two free blocks side by side. -/
def Loose (c d : Cell) : Prop := c.use = .free → d.use ≠ .free

/-- The invariant: a heap whose last end mark is at `e`. -/
structure Heap (hdr e : ℕ) (cs : List Cell) : Prop where
  next : cs.IsChain (Next hdr)
  roomy : ∀ c ∈ cs, Roomy hdr c
  loose : cs.IsChain Loose
  ended : ∃ body, cs = body ++ [⟨e, 0, .mark true⟩]

/-! ## The operations -/

/-- Put the free block `c` in front of what follows it: it swallows a free block, and takes the
place of an end mark in the list, unless that is the last one. -/
def absorb (c : Cell) : List Cell → List Cell
  | [] => [c]
  | d :: ds =>
    match d.use with
    | .free => { c with size := c.size + d.size } :: ds
    | .live => c :: d :: ds
    | .mark listed => c :: { d with use := .mark (listed && ds.isEmpty) } :: ds

variable {hdr e want slack a : ℕ} {c d : Cell} {cs cs' pre post : List Cell}

/-- Taking the first block of `want` bytes.  It is split when more than `slack` bytes are left. -/
inductive Taken (want slack : ℕ) : List Cell → ℕ → List Cell → Prop
  | whole {pre post : List Cell} {c : Cell} (hpre : ∀ p ∈ pre, ¬ p.Fits want)
      (hc : c.Fits want) (hs : c.size ≤ want + slack) :
      Taken want slack (pre ++ c :: post) c.addr (pre ++ { c with use := .live } :: post)
  | split {pre post : List Cell} {c : Cell} (hpre : ∀ p ∈ pre, ¬ p.Fits want)
      (hc : c.Fits want) (hs : want + slack < c.size) :
      Taken want slack (pre ++ c :: post) c.addr
        (pre ++ { c with size := want, use := .live } ::
          absorb ⟨c.addr + want, c.size - want, .free⟩ post)

/-- Giving back the block at an address. -/
inductive Released : List Cell → ℕ → List Cell → Prop
  | plain {pre post : List Cell} {c : Cell} (hc : c.use = .live)
      (hpre : ∀ p ∈ pre.getLast?, p.use ≠ .free) :
      Released (pre ++ c :: post) c.addr (pre ++ absorb { c with use := .free } post)
  | merged {pre post : List Cell} {p c : Cell} (hc : c.use = .live) (hp : p.use = .free) :
      Released (pre ++ p :: c :: post) c.addr
        (pre ++ absorb { p with size := p.size + c.size } post)

/-! ## Cells in a row -/

theorem use_eq_free_or_live (h : c.isMark = false) : c.use = .free ∨ c.use = .live := by
  unfold Cell.isMark at h
  cases hu : c.use with
  | free => exact .inl rfl
  | live => exact .inr rfl
  | mark _ => simp [hu] at h

@[simp] theorem isMark_of_free (h : c.use = .free) : c.isMark = false := by
  simp [Cell.isMark, h]

@[simp] theorem isMark_of_live (h : c.use = .live) : c.isMark = false := by
  simp [Cell.isMark, h]

theorem next_of_block (h : c.isMark = false) : Next hdr c d ↔ c.stop = d.addr := by
  simp [Next, h]

theorem Roomy.le_size (h : Roomy hdr c) (hc : c.isMark = false) : hdr ≤ c.size := by
  simpa [Roomy, hc] using h

/-- A cell can be exchanged for one at the same address. -/
theorem Next.congr_right {d' : Cell} (h : Next hdr c d) (ha : d'.addr = d.addr) :
    Next hdr c d' := by
  unfold Next at h ⊢
  rwa [ha]

/-- The cell at the seam of a chain, and what follows it, can be exchanged. -/
theorem isChain_exchange {R : Cell → Cell → Prop} (h : (pre ++ c :: post).IsChain R)
    (hd : ∀ p, R p c → R p d) (ht : (d :: cs).IsChain R) : (pre ++ d :: cs).IsChain R := by
  obtain ⟨hpre, _, hseam⟩ := List.isChain_append.1 h
  refine List.isChain_append.2 ⟨hpre, ht, ?_⟩
  intro p hp y hy
  obtain rfl : d = y := by simpa using hy
  exact hd p (hseam p hp c (by simp))

theorem isChain_new_head {R : Cell → Cell → Prop} (h : (c :: cs).IsChain R)
    (hd : ∀ y, R c y → R d y) : (d :: cs).IsChain R := by
  cases cs with
  | nil => exact List.isChain_singleton d
  | cons y ys =>
    obtain ⟨hy, hys⟩ := List.isChain_cons_cons.1 h
    exact List.isChain_cons_cons.2 ⟨hd y hy, hys⟩

/-! ## Joining a free block with what follows -/

theorem absorb_free (h : d.use = .free) (cs : List Cell) :
    absorb c (d :: cs) = { c with size := c.size + d.size } :: cs := by
  simp [absorb, h]

theorem absorb_live (h : d.use = .live) (cs : List Cell) :
    absorb c (d :: cs) = c :: d :: cs := by
  simp [absorb, h]

theorem absorb_mark {listed : Bool} (h : d.use = .mark listed) (cs : List Cell) :
    absorb c (d :: cs) = c :: { d with use := .mark (listed && cs.isEmpty) } :: cs := by
  simp [absorb, h]

/-- The block stays where it is, and free. -/
theorem exists_absorb_eq (c : Cell) (cs : List Cell) :
    ∃ n rest, absorb c cs = { c with size := n } :: rest := by
  cases cs with
  | nil => exact ⟨c.size, [], rfl⟩
  | cons d ds =>
    cases hd : d.use with
    | free => exact ⟨c.size + d.size, ds, absorb_free hd ds⟩
    | live => exact ⟨c.size, d :: ds, absorb_live hd ds⟩
    | mark listed => exact ⟨c.size, _, absorb_mark hd ds⟩

theorem absorb_next (hc : c.use = .free) (h : (c :: post).IsChain (Next hdr)) :
    (absorb c post).IsChain (Next hdr) := by
  cases post with
  | nil => exact h
  | cons d ds =>
    obtain ⟨hcd, hds⟩ := List.isChain_cons_cons.1 h
    cases hd : d.use with
    | free =>
      rw [absorb_free hd]
      have hstop : c.stop = d.addr := (next_of_block (isMark_of_free hc)).1 hcd
      refine isChain_new_head hds fun y hy => ?_
      have hc' : Cell.isMark { c with size := c.size + d.size } = false := isMark_of_free hc
      rw [next_of_block (isMark_of_free hd)] at hy
      refine (next_of_block hc').2 ?_
      simp only [Cell.stop] at hstop hy ⊢
      omega
    | live =>
      rw [absorb_live hd]
      exact h
    | mark listed =>
      rw [absorb_mark hd]
      refine List.isChain_cons_cons.2 ⟨hcd.congr_right rfl, isChain_new_head hds fun y hy => ?_⟩
      have hm : d.isMark = true := by simp [Cell.isMark, hd]
      have hm' : Cell.isMark { d with use := .mark (listed && ds.isEmpty) } = true := rfl
      simp only [Next, hm, hm', if_true] at hy ⊢
      exact hy

theorem absorb_roomy (hc : Roomy hdr c) (hfree : c.use = .free) (h : ∀ d ∈ post, Roomy hdr d) :
    ∀ d ∈ absorb c post, Roomy hdr d := by
  cases post with
  | nil => simpa [absorb] using hc
  | cons d ds =>
    have hds : ∀ x ∈ ds, Roomy hdr x := fun x hx => h x (List.mem_cons_of_mem _ hx)
    have hroom : Roomy hdr d := h d List.mem_cons_self
    cases hd : d.use with
    | free =>
      have hle : hdr ≤ c.size := hc.le_size (isMark_of_free hfree)
      have hjoin : Roomy hdr { c with size := c.size + d.size } := by
        simp only [Roomy, Cell.isMark, hfree, Bool.false_eq_true, if_false]
        omega
      rw [absorb_free hd]
      simpa [hjoin] using hds
    | live =>
      rw [absorb_live hd]
      simpa [hc, hroom] using hds
    | mark listed =>
      have hmark : Roomy hdr { d with use := .mark (listed && ds.isEmpty) } := by
        simpa [Roomy, Cell.isMark, hd] using hroom
      rw [absorb_mark hd]
      simpa [hc, hmark] using hds

theorem absorb_loose (h : post.IsChain Loose) : (absorb c post).IsChain Loose := by
  cases post with
  | nil => exact List.isChain_singleton c
  | cons d ds =>
    cases hd : d.use with
    | free =>
      rw [absorb_free hd]
      exact isChain_new_head h fun y hy _ => hy hd
    | live =>
      rw [absorb_live hd]
      exact List.isChain_cons_cons.2 ⟨fun _ => by simp [hd], h⟩
    | mark listed =>
      rw [absorb_mark hd]
      refine List.isChain_cons_cons.2 ⟨fun _ => by simp, isChain_new_head h fun y _ hy => ?_⟩
      simp at hy

theorem absorb_ended (h : ∃ body, post = body ++ [⟨e, 0, .mark true⟩]) :
    ∃ body, absorb c post = body ++ [⟨e, 0, .mark true⟩] := by
  obtain ⟨body, rfl⟩ := h
  cases body with
  | nil => exact ⟨[c], rfl⟩
  | cons d ds =>
    rw [List.cons_append]
    cases hd : d.use with
    | free => exact ⟨_ :: ds, absorb_free hd _⟩
    | live => exact ⟨c :: d :: ds, absorb_live hd _⟩
    | mark listed => exact ⟨c :: _ :: ds, absorb_mark hd _⟩

/-! ## The invariant is kept -/

theorem Heap.next_tail (h : Heap hdr e (pre ++ c :: post)) : (c :: post).IsChain (Next hdr) :=
  (List.isChain_append.1 h.next).2.1

theorem Heap.loose_tail (h : Heap hdr e (pre ++ c :: post)) : (c :: post).IsChain Loose :=
  (List.isChain_append.1 h.loose).2.1

/-- A block is not the last cell. -/
theorem Heap.ended_tail (h : Heap hdr e (pre ++ c :: post)) (hc : c.isMark = false) :
    ∃ body, post = body ++ [⟨e, 0, .mark true⟩] := by
  obtain ⟨body, hbody⟩ := h.ended
  rcases List.eq_nil_or_concat post with rfl | ⟨init, last, rfl⟩
  · have hlast := (List.append_inj' hbody rfl).2
    rw [List.cons.injEq] at hlast
    simp [hlast.1, Cell.isMark] at hc
  · refine ⟨init, ?_⟩
    rw [List.concat_eq_append, ← List.cons_append, ← List.append_assoc] at hbody
    rw [List.concat_eq_append, (List.append_inj' hbody rfl).2]

/-- A part of the heap that begins with a block can be exchanged for one that begins with a block
at the same address. -/
theorem Heap.exchange (h : Heap hdr e (pre ++ c :: post)) (ha : d.addr = c.addr)
    (hloose : ∀ p ∈ pre.getLast?, Loose p d) (hnext : (d :: cs).IsChain (Next hdr))
    (hroomy : ∀ x ∈ d :: cs, Roomy hdr x) (hcs : (d :: cs).IsChain Loose)
    (hended : ∃ body, cs = body ++ [⟨e, 0, .mark true⟩]) : Heap hdr e (pre ++ d :: cs) where
  next := isChain_exchange h.next (fun p hp => hp.congr_right ha) hnext
  roomy := by
    intro x hx
    rcases List.mem_append.1 hx with hx | hx
    · exact h.roomy x (List.mem_append_left _ hx)
    · exact hroomy x hx
  loose := by
    refine List.isChain_append.2 ⟨(List.isChain_append.1 h.loose).1, hcs, ?_⟩
    intro p hp y hy
    obtain rfl : d = y := by simpa using hy
    exact hloose p hp
  ended := by
    obtain ⟨body, rfl⟩ := hended
    exact ⟨pre ++ d :: body, by simp⟩

theorem Heap.roomy_post (h : Heap hdr e (pre ++ c :: post)) : ∀ d ∈ post, Roomy hdr d :=
  fun d hd => h.roomy d (by simp [hd])

theorem Heap.roomy_mid (h : Heap hdr e (pre ++ c :: post)) : Roomy hdr c :=
  h.roomy c (by simp)

theorem Heap.loose_last (h : Heap hdr e (pre ++ c :: post)) :
    ∀ p ∈ pre.getLast?, Loose p c :=
  fun p hp => (List.isChain_append.1 h.loose).2.2 p hp c (by simp)

/-- A live block in the place of a cell. -/
theorem loose_live (hd : d.use = .live) (p : Cell) : Loose p d := fun _ => by simp [hd]

theorem loose_of_live (hd : d.use = .live) (y : Cell) : Loose d y := fun h => by simp [hd] at h

/-- A heap in which a free block takes the place of the cell `c`, with all that is now free behind
it. -/
theorem Heap.exchange_absorb (h : Heap hdr e (pre ++ c :: post)) (ha : d.addr = c.addr)
    (hd : d.use = .free) (hpre : ∀ p ∈ pre.getLast?, p.use ≠ .free) (hroom : Roomy hdr d)
    (hnext : (d :: cs).IsChain (Next hdr)) (hroomy : ∀ x ∈ cs, Roomy hdr x)
    (hloose : cs.IsChain Loose) (hended : ∃ body, cs = body ++ [⟨e, 0, .mark true⟩]) :
    Heap hdr e (pre ++ absorb d cs) := by
  obtain ⟨n, rest, habs⟩ := exists_absorb_eq d cs
  have hnext' := absorb_next hd hnext
  have hroomy' := absorb_roomy hroom hd hroomy
  have hloose' : (absorb d cs).IsChain Loose := absorb_loose hloose
  obtain ⟨body, hbody⟩ := absorb_ended (c := d) hended
  rw [habs] at hnext' hroomy' hloose' hbody ⊢
  refine h.exchange ha (fun p hp hfree => absurd hfree (hpre p hp)) hnext' hroomy' hloose' ?_
  cases body with
  | nil =>
    rw [List.nil_append, List.cons.injEq] at hbody
    have huse := congrArg Cell.use hbody.1
    simp [hd] at huse
  | cons x body =>
    rw [List.cons_append, List.cons.injEq] at hbody
    exact ⟨body, hbody.2⟩

theorem Released.heap (hr : Released cs a cs') (h : Heap hdr e cs) : Heap hdr e cs' := by
  cases hr with
  | @plain pre post c hc hpre =>
    have hmark : c.isMark = false := isMark_of_live hc
    have hfree : Cell.isMark { c with use := .free } = false := rfl
    refine h.exchange_absorb rfl rfl hpre ?_ ?_ h.roomy_post h.loose_tail.tail
      (h.ended_tail hmark)
    · simpa [Roomy, hfree] using h.roomy_mid.le_size hmark
    · exact isChain_new_head h.next_tail fun y hy =>
        (next_of_block hfree).2 ((next_of_block hmark).1 hy)
  | @merged pre post p c hc hp =>
    have hmark : c.isMark = false := isMark_of_live hc
    have hpmark : p.isMark = false := isMark_of_free hp
    have hjoin : Cell.isMark { p with size := p.size + c.size } = false := hpmark
    obtain ⟨hpc, hpost⟩ := List.isChain_cons_cons.1 h.next_tail
    have hstop : p.stop = c.addr := (next_of_block hpmark).1 hpc
    have hsplit : Heap hdr e ((pre ++ [p]) ++ c :: post) := by simpa using h
    refine h.exchange_absorb rfl hp ?_ ?_ ?_ hsplit.roomy_post hsplit.loose_tail.tail
      (hsplit.ended_tail hmark)
    · exact fun x hx hfree => h.loose_last x hx hfree hp
    · have hle := h.roomy_mid.le_size hpmark
      simp only [Roomy, hjoin, Bool.false_eq_true, if_false]
      omega
    · refine isChain_new_head hpost fun y hy => (next_of_block hjoin).2 ?_
      have hy := (next_of_block hmark).1 hy
      simp only [Cell.stop] at hstop hy ⊢
      omega

/-- The first `want` bytes of a block, as a live block. -/
def Cell.front (c : Cell) (want : ℕ) : Cell := { c with size := want, use := .live }

/-- The other bytes, as a live block. -/
def Cell.rest (c : Cell) (want : ℕ) : Cell := ⟨c.addr + want, c.size - want, .live⟩

/-- A block cut in two live ones. -/
def cutBlock (pre post : List Cell) (c : Cell) (want : ℕ) : List Cell :=
  (pre ++ [c.front want]) ++ c.rest want :: post

theorem Heap.cut (h : Heap hdr e (pre ++ c :: post)) (hc : c.isMark = false) (hwant : hdr ≤ want)
    (hrest : want + hdr ≤ c.size) : Heap hdr e (cutBlock pre post c want) := by
  have hlive : (c.front want).isMark = false := rfl
  obtain ⟨body, hbody⟩ := h.ended_tail hc
  rw [cutBlock, List.append_assoc, List.singleton_append]
  refine h.exchange rfl (fun p _ => loose_live rfl p) ?_ ?_ ?_ ⟨_ :: body, by rw [hbody]; rfl⟩
  · refine List.isChain_cons_cons.2 ⟨(next_of_block hlive).2 rfl, ?_⟩
    refine isChain_new_head h.next_tail fun y hy => (next_of_block rfl).2 ?_
    have hstop := (next_of_block hc).1 hy
    simp only [Cell.stop, Cell.rest] at hstop ⊢
    omega
  · have hroom : Roomy hdr (c.front want) := by simpa [Roomy, Cell.isMark, Cell.front]
    have hroomRest : Roomy hdr (c.rest want) := by
      simp only [Roomy, Cell.isMark, Cell.rest, Bool.false_eq_true, if_false]
      omega
    simpa [hroom, hroomRest] using h.roomy_post
  · exact List.isChain_cons_cons.2 ⟨loose_of_live rfl _,
      isChain_new_head h.loose_tail fun y _ => loose_of_live rfl y⟩

/-- Taking a part of a block is cutting the block, and giving back the rest. -/
theorem released_rest (pre post : List Cell) (c : Cell) (want : ℕ) :
    Released (cutBlock pre post c want) (c.addr + want)
      (pre ++ { c with size := want, use := .live } ::
        absorb ⟨c.addr + want, c.size - want, .free⟩ post) := by
  have h : Released ((pre ++ [{ c with size := want, use := .live }]) ++
      ⟨c.addr + want, c.size - want, .live⟩ :: post) (c.addr + want)
      ((pre ++ [{ c with size := want, use := .live }]) ++
        absorb ⟨c.addr + want, c.size - want, .free⟩ post) := .plain rfl (by simp)
  simpa [cutBlock, Cell.front, Cell.rest] using h

theorem Taken.heap (ht : Taken want slack cs a cs') (h : Heap hdr e cs) (hwant : hdr ≤ want)
    (hslack : hdr ≤ slack) : Heap hdr e cs' := by
  cases ht with
  | @whole pre post c hpre hc hs =>
    have hmark : c.isMark = false := isMark_of_free hc.1
    have hlive : Cell.isMark { c with use := .live } = false := rfl
    refine h.exchange rfl (fun p _ => loose_live rfl p) ?_ ?_ ?_ (h.ended_tail hmark)
    · refine isChain_new_head h.next_tail fun y hy => ?_
      exact (next_of_block hlive).2 ((next_of_block hmark).1 hy)
    · have hroom : Roomy hdr { c with use := .live } := by
        have := h.roomy_mid.le_size hmark
        simpa [Roomy, hlive] using this
      simpa [hroom] using h.roomy_post
    · exact isChain_new_head h.loose_tail fun y _ => loose_of_live rfl y
  | @split pre post c hpre hc hs =>
    have hcut := h.cut (isMark_of_free hc.1) hwant (by omega)
    exact (released_rest pre post c want).heap hcut

/-! ## No two cells overlap -/

/-- `c` ends before `d` begins. -/
def Before (hdr : ℕ) (c d : Cell) : Prop := c.addr + c.extent hdr ≤ d.addr

instance : Trans (Before hdr) (Before hdr) (Before hdr) where
  trans h h' := by
    unfold Before at h h' ⊢
    omega

theorem Next.before (h : Next hdr c d) : Before hdr c d := by
  unfold Next at h
  unfold Before Cell.extent
  cases hm : c.isMark
  · simp only [hm, Bool.false_eq_true, if_false, Cell.stop] at h ⊢
    exact h.le
  · simpa [hm] using h

theorem Heap.disjoint (h : Heap hdr e cs) : cs.Pairwise (Before hdr) :=
  List.isChain_iff_pairwise.1 (h.next.imp fun _ _ => Next.before)

/-- Each cell has at least its header. -/
theorem Heap.hdr_le_extent (h : Heap hdr e cs) (hc : c ∈ cs) : hdr ≤ c.extent hdr := by
  have hroom := h.roomy c hc
  unfold Cell.extent
  cases hm : c.isMark
  · simpa [hm] using hroom.le_size hm
  · simp

/-- Only the last cell is at the address of the last end mark. -/
theorem Heap.addr_lt_end (h : Heap hdr e (pre ++ c :: post)) (hpost : post ≠ []) (hhdr : 0 < hdr) :
    c.addr < e := by
  obtain ⟨body, hbody⟩ := h.ended
  have hmem : (⟨e, 0, .mark true⟩ : Cell) ∈ post := by
    rcases List.eq_nil_or_concat post with rfl | ⟨init, last, rfl⟩
    · exact absurd rfl hpost
    · rw [List.concat_eq_append, ← List.cons_append, ← List.append_assoc] at hbody
      have hlast := (List.append_inj' hbody rfl).2
      simp [hlast]
  have hpair := (List.pairwise_append.1 h.disjoint).2.1
  have hb : Before hdr c ⟨e, 0, .mark true⟩ := List.rel_of_pairwise_cons hpair hmem
  have hle := h.hdr_le_extent (c := c) (by simp)
  simp only [Before] at hb
  omega

/-! ## Nothing stands in the way of the operations -/

/-- A block is taken whenever one is large enough. -/
theorem exists_taken (h : ∃ c ∈ cs, c.Fits want) (slack : ℕ) :
    ∃ a cs', Taken want slack cs a cs' := by
  obtain ⟨c, hc, hfits⟩ := h
  have hsome : (cs.find? fun d => d.Fits want).isSome := by
    rw [List.find?_isSome]
    exact ⟨c, hc, by simpa using hfits⟩
  obtain ⟨b, hb⟩ := Option.isSome_iff_exists.1 hsome
  obtain ⟨hfit, pre, post, rfl, hpre⟩ := List.find?_eq_some_iff_append.1 hb
  have hpre' : ∀ p ∈ pre, ¬ p.Fits want := fun p hp => by simpa using hpre p hp
  have hfit' : b.Fits want := by simpa using hfit
  by_cases hs : b.size ≤ want + slack
  · exact ⟨_, _, .whole hpre' hfit' hs⟩
  · exact ⟨_, _, .split hpre' hfit' (Nat.not_le.1 hs)⟩

/-- A live block can be given back. -/
theorem exists_released (hc : c ∈ cs) (hlive : c.use = .live) : ∃ cs', Released cs c.addr cs' := by
  obtain ⟨pre, post, rfl⟩ := List.append_of_mem hc
  rcases List.eq_nil_or_concat pre with rfl | ⟨init, p, rfl⟩
  · exact ⟨_, .plain hlive (by simp)⟩
  by_cases hp : p.use = .free
  · have hjoin : Released (init ++ p :: c :: post) c.addr _ := .merged hlive hp
    rw [List.concat_eq_append, List.append_assoc]
    exact ⟨_, hjoin⟩
  · exact ⟨_, .plain hlive (by simpa using hp)⟩

end FreeBlocks
