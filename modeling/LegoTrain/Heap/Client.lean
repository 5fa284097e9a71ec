import LegoTrain.Heap.Malloc
import LegoTrain.Heap.Regions
import LegoTrain.Lib.Ledger

/-!
# The users of the heap

What the tasks of a firmware ask of the heap, one request after the other (`vTaskSuspendAll` keeps
the calls apart).

* `request` : one request;
* `Owners` : the live blocks are what the users have, and show what they have stored;
* `Owners.allocated`, `Owners.freed`, `Owners.stored` : what each request does to that.
-/

namespace Heap5

open ByteMem FreeBlocks

/-! ## Requests -/

/-- The heap and its users: what they have asked for, where it is, and what they have last stored
there. -/
structure Client where
  heap : HeapState
  /-- the sizes asked for -/
  ledger : Ledger ℕ
  /-- the pointers returned, by the same numbers -/
  pointers : List ℕ
  contents : ℕ → ℕ → Option UInt8

/-- The pointer to the block with the number `i`. -/
def Client.pointer (c : Client) (i : ℕ) : ℕ := c.pointers.getD i 0

/-- What a user does. -/
inductive Request
  | malloc (xWantedSize : ℕ)
  | free (i : ℕ)
  /-- store a byte at an offset of a block -/
  | store (i k : ℕ) (b : UInt8)
  deriving DecidableEq, Repr

/-- The block is live, and the offset within what was asked for. -/
def Client.Within (c : Client) (i k : ℕ) : Prop :=
  i ∉ c.ledger.released ∧ k < (c.ledger.taken[i]?).getD 0

instance (c : Client) (i k : ℕ) : Decidable (c.Within i k) := instDecidableAnd

/-- The block is live. -/
def Client.Holds (c : Client) (i : ℕ) : Prop := i ∉ c.ledger.released ∧ i < c.ledger.next

instance (c : Client) (i : ℕ) : Decidable (c.Holds i) := instDecidableAnd

/-- Users ask for a number that a `size_t` holds, give back what they have, once, and store
within what they have asked for.  The others are `none`, and so is a call that does not return. -/
def request (xStart : ℕ) (c : Client) : Request → Option Client
  | .malloc xWantedSize =>
    if xWantedSize < 2 ^ 32 then
      (pvPortMalloc xStart c.heap xWantedSize).map fun (pv, h) =>
        { c with heap := h, ledger := c.ledger.take xWantedSize, pointers := c.pointers ++ [pv] }
    else none
  | .free i =>
    if c.Holds i then
      (vPortFree xStart c.heap (c.pointer i)).map fun h =>
        { c with heap := h, ledger := c.ledger.release i }
    else none
  | .store i k b =>
    if c.Within i k then
      some { c with
        heap := { c.heap with mem := write c.heap.mem (c.pointer i + k) [b] }
        contents := Function.update c.contents i (Function.update (c.contents i) k (some b)) }
    else none

/-- The users of a heap that has just been defined. -/
def Client.init (h : HeapState) : Client := ⟨h, .empty, [], fun _ _ => none⟩

/-! ## The invariant -/

variable {xStart : ℕ} {rs : List (ℕ × ℕ)} {c c' : Client} {cs cs' : List Cell} {d f : Cell}
  {i j k n w a : ℕ} {b : UInt8}

/-- The live cells are what the users have, and show what they have stored. -/
structure Owners (c : Client) (cs : List Cell) : Prop where
  sound : c.ledger.Sound
  length : c.pointers.length = c.ledger.next
  cell : ∀ i n, c.ledger.Live i n → ∃ d ∈ liveCells cs, c.pointer i = d.addr + 16 ∧
    wantedSize n ≤ d.size ∧ 0 < n ∧ n < 2 ^ 31
  distinct : ∀ i j n k, c.ledger.Live i n → c.ledger.Live j k → c.pointer i = c.pointer j → i = j
  owner : ∀ d ∈ liveCells cs, ∃ i n, c.ledger.Live i n ∧ c.pointer i = d.addr + 16
  contents : ∀ i n k b, c.ledger.Live i n → k < n → c.contents i k = some b →
    c.heap.mem (c.pointer i + k) = b
  fresh : ∀ i k, c.ledger.next ≤ i → c.contents i k = none

theorem owners_init (h : HeapState) : Owners (.init h) (initialCells rs) where
  sound := Ledger.sound_empty
  length := rfl
  cell := by
    intro i n hi
    simp [Client.init, Ledger.Live, Ledger.empty] at hi
  distinct := by
    intro i j n k hi
    simp [Client.init, Ledger.Live, Ledger.empty] at hi
  owner := by
    rw [liveCells_initialCells]
    simp
  contents := by
    intro i n k b hi
    simp [Client.init, Ledger.Live, Ledger.empty] at hi
  fresh := fun _ _ _ => rfl

theorem Client.holds_iff : c.Holds i ↔ ∃ n, c.ledger.Live i n := by
  unfold Client.Holds Ledger.Live Ledger.next
  constructor
  · rintro ⟨h1, h2⟩
    exact ⟨_, List.getElem?_eq_getElem h2, h1⟩
  · rintro ⟨n, h1, h2⟩
    exact ⟨h2, (List.getElem?_eq_some_iff.1 h1).1⟩

theorem Client.within_iff : c.Within i k ↔ ∃ n, c.ledger.Live i n ∧ k < n := by
  unfold Client.Within Ledger.Live
  constructor
  · rintro ⟨h1, h2⟩
    cases hn : c.ledger.taken[i]? with
    | none => simp [hn] at h2
    | some n =>
      rw [hn, Option.getD_some] at h2
      exact ⟨n, ⟨rfl, h1⟩, h2⟩
  · rintro ⟨n, ⟨h1, h2⟩, hk⟩
    rw [h1]
    exact ⟨h2, hk⟩

theorem live_unique (h : c.ledger.Live i n) (h' : c.ledger.Live i k) : n = k := by
  have hn := h.1.symm.trans h'.1
  exact Option.some.inj hn

/-! ## What each request keeps -/

/-- A live block has room for a header and what was asked for. -/
theorem Owners.room (h : Owners c cs) (hi : c.ledger.Live i n) :
    ∃ d ∈ liveCells cs, c.pointer i = d.addr + 16 ∧ c.pointer i + n ≤ d.stop := by
  obtain ⟨d, hd, hp, hsize, h0, hlt⟩ := h.cell i n hi
  obtain ⟨-, hle, -⟩ := wantedSize_spec h0 hlt
  refine ⟨d, hd, hp, ?_⟩
  unfold Cell.stop
  omega

/-- Users who are not concerned see the same bytes. -/
theorem Owners.contents_keep {m : Mem} (h : Owners c cs) (hkeep : KeepsLive c.heap.mem m cs')
    (hi : c.ledger.Live i n) (hd : d ∈ liveCells cs') (hp : c.pointer i = d.addr + 16)
    (hstop : c.pointer i + n ≤ d.stop) (hk : k < n) (hb : c.contents i k = some b) :
    m (c.pointer i + k) = b := by
  rw [hkeep d hd _ (by omega) (by omega)]
  exact h.contents i n k b hi hk hb

theorem live_take_cases (h : (c.ledger.take n).Live i k) (hs : c.ledger.Sound) :
    c.ledger.Live i k ∨ i = c.ledger.next ∧ k = n := by
  have hlt := h.lt
  rw [Ledger.next_take] at hlt
  by_cases hi : i < c.ledger.next
  · refine .inl ⟨?_, h.2⟩
    have htaken := h.1
    rwa [Ledger.take, List.getElem?_append_left hi] at htaken
  · obtain rfl : i = c.ledger.next := by omega
    have hnew := (hs.live_take n).1
    exact .inr ⟨rfl, Option.some.inj (h.1.symm.trans hnew)⟩

theorem live_release_cases (h : (c.ledger.release j).Live i k) : c.ledger.Live i k ∧ i ≠ j := by
  have hmem := h.2
  rw [Ledger.released_release, List.mem_cons, not_or] at hmem
  exact ⟨⟨h.1, hmem.2⟩, hmem.1⟩

/-- The state after an allocation. -/
def Client.allocated (c : Client) (h : HeapState) (pv n : ℕ) : Client :=
  { c with heap := h, ledger := c.ledger.take n, pointers := c.pointers ++ [pv] }

theorem Client.pointer_old (hlen : c.pointers.length = c.ledger.next) (hi : i < c.ledger.next)
    (h : HeapState) (pv : ℕ) : (c.allocated h pv n).pointer i = c.pointer i := by
  unfold Client.pointer Client.allocated
  rw [List.getD_append _ _ _ _ (by omega)]

theorem Client.pointer_new (hlen : c.pointers.length = c.ledger.next) (h : HeapState) (pv : ℕ) :
    (c.allocated h pv n).pointer c.ledger.next = pv := by
  unfold Client.pointer Client.allocated
  rw [List.getD_append_right _ _ _ _ (by omega), hlen, Nat.sub_self]
  rfl

/-- The cells that were live are so after an allocation, and are elsewhere. -/
theorem Taken.live_keep {slack e : ℕ} (ht : Taken w slack cs a cs') (hp : Placed xStart e cs')
    (hd : d ∈ liveCells cs) : d ∈ liveCells cs' ∧ d.addr ≠ a := by
  obtain ⟨l, r, n, hcs, hcs', -, -⟩ := ht.liveCells
  rw [hcs] at hd
  refine ⟨?_, hp.addr_ne_of_live hcs' hd⟩
  rw [hcs']
  rcases List.mem_append.1 hd with hd | hd <;> simp [hd]

theorem Owners.allocated {h : HeapState} (ho : Owners c cs) (hp : Placed xStart h.pxEnd cs')
    (ht : Taken (wantedSize n) 32 cs a cs') (h0 : 0 < n) (hlt : n < 2 ^ 31)
    (hkeep : KeepsLive c.heap.mem h.mem cs) : Owners (c.allocated h (a + 16) n) cs' := by
  obtain ⟨l, r, sz, hcs, hcs', hw, -⟩ := ht.liveCells
  have hnew : (⟨a, sz, .live⟩ : Cell) ∈ liveCells cs' := by
    rw [hcs']
    simp
  have hold : ∀ {i k}, c.ledger.Live i k →
      (c.allocated h (a + 16) n).pointer i = c.pointer i ∧
        ∃ d ∈ liveCells cs, d ∈ liveCells cs' ∧ d.addr ≠ a ∧ c.pointer i = d.addr + 16 := by
    intro i k hi
    obtain ⟨d, hd, hpd, -⟩ := ho.cell i k hi
    obtain ⟨hd', hne⟩ := Taken.live_keep ht hp hd
    exact ⟨Client.pointer_old ho.length hi.lt _ _, d, hd, hd', hne, hpd⟩
  have hpnew := Client.pointer_new (n := n) ho.length h (a + 16)
  refine ⟨ho.sound.take n, ?_, ?_, ?_, ?_, ?_, ?_⟩
  · simp only [Client.allocated, List.length_append, List.length_singleton, Ledger.next_take,
      ho.length]
  · intro i k hi
    rcases live_take_cases hi ho.sound with hi | ⟨rfl, rfl⟩
    · obtain ⟨d, hd, hpd, hrest⟩ := ho.cell i k hi
      exact ⟨d, (Taken.live_keep ht hp hd).1, (hold hi).1.trans hpd, hrest⟩
    · exact ⟨_, hnew, hpnew, hw, h0, hlt⟩
  · intro i j k k' hi hj heq
    rcases live_take_cases hi ho.sound with hiold | ⟨hinew, -⟩ <;>
      rcases live_take_cases hj ho.sound with hjold | ⟨hjnew, -⟩
    · rw [(hold hiold).1, (hold hjold).1] at heq
      exact ho.distinct i j k k' hiold hjold heq
    · obtain ⟨hpi, d, -, -, hne, hpd⟩ := hold hiold
      rw [hpi, hjnew, hpnew, hpd] at heq
      omega
    · obtain ⟨hpj, d, -, -, hne, hpd⟩ := hold hjold
      rw [hpj, hinew, hpnew, hpd] at heq
      omega
    · rw [hinew, hjnew]
  · intro d hd
    rcases Taken.live_cases ht hd with hda | hdold
    · exact ⟨_, n, ho.sound.live_take n, by rw [hda]; exact hpnew⟩
    · obtain ⟨i, k, hi, hpi⟩ := ho.owner d hdold
      exact ⟨i, k, hi.take n, (hold hi).1.trans hpi⟩
  · intro i k k' b hi hk hb
    rcases live_take_cases hi ho.sound with hi | ⟨rfl, rfl⟩
    · obtain ⟨d, hd, hpd, hstop⟩ := ho.room hi
      rw [(hold hi).1]
      exact ho.contents_keep hkeep hi hd hpd hstop hk hb
    · have hnone := ho.fresh c.ledger.next k' le_rfl
      rw [Client.allocated] at hb
      rw [hnone] at hb
      cases hb
  · intro i k hi
    rw [Client.allocated, Ledger.next_take] at hi
    exact ho.fresh i k (by omega)

/-- The state after a block has been given back. -/
def Client.freed (c : Client) (h : HeapState) (i : ℕ) : Client :=
  { c with heap := h, ledger := c.ledger.release i }

theorem Owners.freed {h : HeapState} (ho : Owners c cs) (hp : Placed xStart c.heap.pxEnd cs)
    (hi : c.ledger.Live i n) (hpd : c.pointer i = d.addr + 16)
    (hr : Released cs d.addr cs') (hkeep : KeepsLive c.heap.mem h.mem cs') :
    Owners (c.freed h i) cs' := by
  obtain ⟨l, r, sz, hcs, hcs'⟩ := hr.liveCells
  -- the other blocks are still there
  have hold : ∀ {j k}, c.ledger.Live j k → j ≠ i → ∀ f ∈ liveCells cs,
      c.pointer j = f.addr + 16 → f ∈ liveCells cs' := by
    intro j k hj hne f hf hpf
    rw [hcs] at hf
    rw [hcs']
    rcases List.mem_append.1 hf with hf | hf
    · exact List.mem_append_left _ hf
    rcases List.mem_cons.1 hf with rfl | hf
    · exact absurd (ho.distinct j i k n hj hi (hpf.trans hpd.symm)) hne
    · exact List.mem_append_right _ hf
  refine ⟨ho.sound.release hi, ?_, ?_, ?_, ?_, ?_, ?_⟩
  · exact ho.length
  · intro j k hj
    obtain ⟨hj, hne⟩ := live_release_cases hj
    obtain ⟨f, hf, hpf, hrest⟩ := ho.cell j k hj
    exact ⟨f, hold hj hne f hf hpf, hpf, hrest⟩
  · intro j j' k k' hj hj' heq
    exact ho.distinct j j' k k' (live_release_cases hj).1 (live_release_cases hj').1 heq
  · intro f hf
    obtain ⟨hfold, hne⟩ := hp.live_of_released hr hf
    obtain ⟨j, k, hj, hpj⟩ := ho.owner f hfold
    refine ⟨j, k, hj.release ?_, hpj⟩
    rintro rfl
    exact hne (by omega)
  · intro j k k' b hj hk hb
    obtain ⟨hj, hne⟩ := live_release_cases hj
    obtain ⟨f, hf, hpf, hstop⟩ := ho.room hj
    exact ho.contents_keep hkeep hj (hold hj hne f hf hpf) hpf hstop hk hb
  · exact ho.fresh

/-- The state after a byte has been stored. -/
def Client.stored (c : Client) (i k : ℕ) (b : UInt8) : Client :=
  { c with
    heap := { c.heap with mem := write c.heap.mem (c.pointer i + k) [b] }
    contents := Function.update c.contents i (Function.update (c.contents i) k (some b)) }

/-- No header is within what was asked for. -/
theorem Placed.outside_payload {e x : ℕ} (h : Placed xStart e cs) (hd : d ∈ liveCells cs)
    (hf : f ∈ cs) (h1 : d.addr + 16 ≤ x) (h2 : x < d.stop) : Outside f.addr x := by
  by_cases hfd : f = d
  · subst hfd
    exact .inr (by omega)
  · exact h.outside_of_live hf hd hfd (by omega) h2

/-- A byte of a live block is no part of what the heap keeps. -/
theorem Shows.store {s : HeapState} {x : ℕ} (h : Shows xStart s cs) (hd : d ∈ liveCells cs)
    (h1 : d.addr + 16 ≤ x) (h2 : x < d.stop) :
    Shows xStart { s with mem := write s.mem x [b] } cs := by
  have hout : ∀ y, y ≠ x → write s.mem x [b] y = s.mem y := by
    intro y hy
    refine write_outside ?_
    rw [List.length_singleton]
    omega
  have hheader : ∀ f ∈ cs, ∀ y, f.addr ≤ y → y < f.addr + 8 → write s.mem x [b] y = s.mem y := by
    intro f hf y hy1 hy2
    have hfx := h.placed.outside_payload hd hf h1 h2
    unfold Outside at hfx
    exact hout y (by omega)
  refine ⟨h.placed, h.linked.congr ?_, ?_, ?_, h.free, h.low, h.bit⟩
  · intro q hq y hy1 hy2
    rcases List.mem_cons.1 hq with rfl | hq
    · have hsx := h.placed.outside_start hd (x := x) (by omega) h2
      unfold Outside at hsx
      exact hout y (by omega)
    · obtain ⟨f, hf, rfl⟩ := List.mem_map.1 hq
      exact hheader f (List.mem_filter.1 hf).1 y hy1 hy2
  · exact (nextFreeBlock_congr (hheader _ h.placed.exists_end)).trans h.last
  · intro f hf hlive
    obtain ⟨hnext, hsize⟩ := h.live f hf hlive
    exact ⟨(nextFreeBlock_congr (hheader f hf)).trans hnext,
      (blockSize_congr (hheader f hf)).trans hsize⟩

/-- What two users asked for does not overlap. -/
theorem Owners.apart {e : ℕ} (h : Owners c cs) (hp : Placed xStart e cs) (hi : c.ledger.Live i n)
    (hj : c.ledger.Live j k) (hne : i ≠ j) :
    c.pointer i + n ≤ c.pointer j ∨ c.pointer j + k ≤ c.pointer i := by
  obtain ⟨d, hd, hpd, hdstop⟩ := h.room hi
  obtain ⟨f, hf, hpf, hfstop⟩ := h.room hj
  have hdx : d.extent 16 = d.size := extent_of_block (Placed.not_mark_of_live hd)
  have hfx : f.extent 16 = f.size := extent_of_block (Placed.not_mark_of_live hf)
  unfold Cell.stop at hdstop hfstop
  rcases hp.disjoint_or_eq (mem_liveCells.1 hd).1 (mem_liveCells.1 hf).1 with rfl | hb | hb
  · exact absurd (h.distinct i j n k hi hj (hpd.trans hpf.symm)) hne
  · unfold Before at hb
    omega
  · unfold Before at hb
    omega

theorem Owners.stored {e : ℕ} (h : Owners c cs) (hp : Placed xStart e cs)
    (hi : c.ledger.Live i n) (hk : k < n) (b : UInt8) : Owners (c.stored i k b) cs where
  sound := h.sound
  length := h.length
  cell := h.cell
  distinct := h.distinct
  owner := h.owner
  contents := by
    intro j m l b' hj hl hb
    have hkeep : c.pointer j + l ≠ c.pointer i + k → c.contents j l = some b' →
        (c.stored i k b).heap.mem (c.pointer j + l) = b' := by
      intro hne hold
      refine Eq.trans (write_outside ?_) (h.contents j m l b' hj hl hold)
      rw [List.length_singleton]
      omega
    by_cases hji : j = i
    · subst hji
      simp only [Client.stored, Function.update_self] at hb
      by_cases hlk : l = k
      · subst hlk
        rw [Function.update_self] at hb
        have hsame : write c.heap.mem (c.pointer j + l) [b] (c.pointer j + l + 0) = b :=
          write_of_mem (by simp)
        exact hsame.trans (Option.some.inj hb)
      · rw [Function.update_of_ne hlk] at hb
        exact hkeep (by omega) hb
    · simp only [Client.stored, Function.update_of_ne hji] at hb
      refine hkeep ?_ hb
      have hap := h.apart hp hi hj (Ne.symm hji)
      omega
  fresh := by
    intro j l hj
    have hlt := hi.lt
    have hji : j ≠ i := by
      have hnext : (c.stored i k b).ledger.next = c.ledger.next := rfl
      omega
    simp only [Client.stored, Function.update_of_ne hji]
    exact h.fresh j l hj

end Heap5
