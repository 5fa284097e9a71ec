import LegoTrain.Heap.Heap5
import LegoTrain.Lib.FreeBytes

/-!
# The list of the free blocks in memory

* `Linked` : the headers in memory link the cells of a list, from `xStart` on;
* `insertionPoint_eq`, `findBlock_eq` : the two walks along that list end, and where;
* `Linked.insert_plain`, `Linked.insert_merged` : what `prvInsertBlockIntoFreeList` makes of it,
  for a block that does not touch the entry before it and for one that does.
-/

namespace Heap5

open ByteMem FreeBlocks

/-! ## Headers -/

/-- Two headers do not overlap. -/
def Apart (p q : ℕ) : Prop := p + 8 ≤ q ∨ q + 8 ≤ p

theorem Apart.symm {p q : ℕ} (h : Apart p q) : Apart q p := Or.symm h

theorem Apart.ne {p q : ℕ} (h : Apart p q) : p ≠ q := by
  unfold Apart at h
  omega

variable {m m' : Mem} {p q n : ℕ}

theorem nextFreeBlock_lt (m : Mem) (p : ℕ) : nextFreeBlock m p < 2 ^ 32 := le_lt m p 4

theorem blockSize_lt (m : Mem) (p : ℕ) : blockSize m p < 2 ^ 32 := le_lt m (p + 4) 4

theorem nextFreeBlock_setNextFreeBlock (h : n < 2 ^ 32) :
    nextFreeBlock (setNextFreeBlock m p n) p = n := by
  rw [nextFreeBlock, setNextFreeBlock, le_write_same]
  exact Nat.mod_eq_of_lt h

theorem nextFreeBlock_setNextFreeBlock_apart (h : Apart p q) :
    nextFreeBlock (setNextFreeBlock m p n) q = nextFreeBlock m q := by
  refine le_write_disjoint ?_
  rw [length_leBytes]
  unfold Apart at h
  omega

theorem nextFreeBlock_setBlockSize :
    nextFreeBlock (setBlockSize m p n) p = nextFreeBlock m p :=
  le_write_disjoint (.inl le_rfl)

theorem nextFreeBlock_setBlockSize_apart (h : Apart p q) :
    nextFreeBlock (setBlockSize m p n) q = nextFreeBlock m q := by
  refine le_write_disjoint ?_
  rw [length_leBytes]
  unfold Apart at h
  omega

theorem blockSize_setBlockSize (h : n < 2 ^ 32) : blockSize (setBlockSize m p n) p = n := by
  rw [blockSize, setBlockSize, le_write_same]
  exact Nat.mod_eq_of_lt h

theorem blockSize_setBlockSize_apart (h : Apart p q) :
    blockSize (setBlockSize m p n) q = blockSize m q := by
  refine le_write_disjoint ?_
  rw [length_leBytes]
  unfold Apart at h
  omega

theorem blockSize_setNextFreeBlock : blockSize (setNextFreeBlock m p n) p = blockSize m p := by
  refine le_write_disjoint ?_
  rw [length_leBytes]
  exact .inr le_rfl

theorem blockSize_setNextFreeBlock_apart (h : Apart p q) :
    blockSize (setNextFreeBlock m p n) q = blockSize m q := by
  refine le_write_disjoint ?_
  rw [length_leBytes]
  unfold Apart at h
  omega

theorem blockSize_setNextFreeBlock_of (h : q = p ∨ Apart p q) :
    blockSize (setNextFreeBlock m p n) q = blockSize m q := by
  rcases h with rfl | h
  · exact blockSize_setNextFreeBlock
  · exact blockSize_setNextFreeBlock_apart h

/-- `x` is not in the header at `p`. -/
def Outside (p x : ℕ) : Prop := x < p ∨ p + 8 ≤ x

theorem setNextFreeBlock_outside {x : ℕ} (h : Outside p x) : setNextFreeBlock m p n x = m x := by
  refine write_outside ?_
  rw [length_leBytes]
  unfold Outside at h
  omega

theorem setBlockSize_outside {x : ℕ} (h : Outside p x) : setBlockSize m p n x = m x := by
  refine write_outside ?_
  rw [length_leBytes]
  unfold Outside at h
  omega

/-- A header that is not touched. -/
theorem nextFreeBlock_congr (h : ∀ x, p ≤ x → x < p + 8 → m' x = m x) :
    nextFreeBlock m' p = nextFreeBlock m p :=
  le_congr (read_congr fun i hi => h _ (by omega) (by omega))

theorem blockSize_congr (h : ∀ x, p ≤ x → x < p + 8 → m' x = m x) :
    blockSize m' p = blockSize m p :=
  le_congr (read_congr fun i hi => h _ (by omega) (by omega))

/-! ## Inserting a block behind a list entry -/

/-- Where the block from `b` on of `s` bytes leads to, and its bytes, with the entry `n` joined if
it can be. -/
def joined (m : Mem) (pxEnd b s n : ℕ) : ℕ × ℕ :=
  if word (b + s) = n ∧ n ≠ pxEnd then (nextFreeBlock m n, s + blockSize m n) else (n, s)

/-- What `insertAfter` does to the memory: the block `b`, of `sz` bytes, leads to `t`. -/
structure Inserted (m m' : Mem) (it a b t sz : ℕ) : Prop where
  next_block : nextFreeBlock m' b = t
  size_block : blockSize m' b = sz
  next_entry : it ≠ b → nextFreeBlock m' it = b
  size_entry : it ≠ b → blockSize m' it = blockSize m it
  outside : ∀ x, Outside it x → Outside a x → m' x = m x

variable {it a b s : ℕ}

theorem joinNext_spec (pxEnd : ℕ) (hn : nextFreeBlock m it = n) (hb : it = b ∨ Apart it b) (hbn : Apart b n)
    (hs : blockSize m b = s) (hsum : s + blockSize m n < 2 ^ 32) :
    nextFreeBlock (joinNext pxEnd m it b) b = (joined m pxEnd b s n).1 ∧
      blockSize (joinNext pxEnd m it b) b = (joined m pxEnd b s n).2 ∧
      (∀ x, Outside b x → joinNext pxEnd m it b x = m x) := by
  have hnlt : n < 2 ^ 32 := by
    rw [← hn]
    exact nextFreeBlock_lt m it
  have hkeep : ∀ k, nextFreeBlock (setBlockSize m b k) it = n := by
    intro k
    rcases hb with rfl | hb
    · rw [nextFreeBlock_setBlockSize, hn]
    · rw [nextFreeBlock_setBlockSize_apart hb.symm, hn]
  unfold joinNext joined
  simp only [hn, hs, hkeep]
  by_cases hQ : word (b + s) = n
  · by_cases hend : n ≠ pxEnd
    · rw [if_pos hQ, if_pos hend, if_pos ⟨hQ, hend⟩]
      refine ⟨?_, ?_, ?_⟩
      · rw [nextFreeBlock_setNextFreeBlock (nextFreeBlock_lt _ _),
          nextFreeBlock_setBlockSize_apart hbn]
      · rw [blockSize_setNextFreeBlock, blockSize_setBlockSize hsum]
      · intro x hx
        rw [setNextFreeBlock_outside hx, setBlockSize_outside hx]
    · rw [if_pos hQ, if_neg hend, if_neg (fun h => hend h.2)]
      obtain rfl : n = pxEnd := not_not.1 hend
      exact ⟨nextFreeBlock_setNextFreeBlock hnlt, blockSize_setNextFreeBlock.trans hs,
        fun x hx => setNextFreeBlock_outside hx⟩
  · rw [if_neg hQ, if_neg (fun h => hQ h.1)]
    exact ⟨nextFreeBlock_setNextFreeBlock hnlt, blockSize_setNextFreeBlock.trans hs,
      fun x hx => setNextFreeBlock_outside hx⟩

/-- The block does not touch the entry before it. -/
theorem insertAfter_plain (pxEnd : ℕ) (hn : nextFreeBlock m it = n) (hia : Apart it a) (hin : Apart it n)
    (han : Apart a n) (hsum : blockSize m a + blockSize m n < 2 ^ 32) (ha : a < 2 ^ 32)
    (hP : word (it + blockSize m it) ≠ a) :
    Inserted m (insertAfter pxEnd m it a) it a a (joined m pxEnd a (blockSize m a) n).1
      (joined m pxEnd a (blockSize m a) n).2 := by
  obtain ⟨hnext, hsize, hout⟩ := joinNext_spec pxEnd hn (.inr hia) han rfl hsum
  have hbytes : ∀ x, it ≤ x → x < it + 8 → joinNext pxEnd m it a x = m x := by
    intro x h1 h2
    refine hout x ?_
    unfold Outside Apart at *
    omega
  have heq : insertAfter pxEnd m it a = setNextFreeBlock (joinNext pxEnd m it a) it a := by
    simp only [insertAfter, joinPrevious, if_neg hP, ne_eq, hia.ne, not_false_eq_true, if_true]
  rw [heq]
  exact
    { next_block := by rw [nextFreeBlock_setNextFreeBlock_apart hia, hnext]
      size_block := by rw [blockSize_setNextFreeBlock_apart hia, hsize]
      next_entry := fun _ => nextFreeBlock_setNextFreeBlock ha
      size_entry := fun _ => blockSize_setNextFreeBlock.trans (blockSize_congr hbytes)
      outside := fun x hx hx' => (setNextFreeBlock_outside hx).trans (hout x hx') }

/-- The block begins where the entry before it ends. -/
theorem insertAfter_merged (pxEnd : ℕ) (hn : nextFreeBlock m it = n) (hin : Apart it n)
    (hsum : blockSize m it + blockSize m a + blockSize m n < 2 ^ 32)
    (hP : word (it + blockSize m it) = a) :
    Inserted m (insertAfter pxEnd m it a) it a it
      (joined m pxEnd it (blockSize m it + blockSize m a) n).1
      (joined m pxEnd it (blockSize m it + blockSize m a) n).2 := by
  have hs : blockSize (setBlockSize m it (blockSize m it + blockSize m a)) it =
      blockSize m it + blockSize m a := blockSize_setBlockSize (by omega)
  have hsn : blockSize (setBlockSize m it (blockSize m it + blockSize m a)) n = blockSize m n :=
    blockSize_setBlockSize_apart hin
  have hnn : nextFreeBlock (setBlockSize m it (blockSize m it + blockSize m a)) n =
      nextFreeBlock m n := nextFreeBlock_setBlockSize_apart hin
  obtain ⟨hnext, hsize, hout⟩ := joinNext_spec pxEnd
    (nextFreeBlock_setBlockSize.trans hn) (.inl rfl) hin hs (by rw [hsn]; exact hsum)
  have heq : insertAfter pxEnd m it a =
      joinNext pxEnd (setBlockSize m it (blockSize m it + blockSize m a)) it it := by
    simp only [insertAfter, joinPrevious, if_pos hP, ne_eq, not_true_eq_false, if_false]
  rw [heq]
  have hjoined : joined (setBlockSize m it (blockSize m it + blockSize m a)) pxEnd it
      (blockSize m it + blockSize m a) n =
      joined m pxEnd it (blockSize m it + blockSize m a) n := by
    unfold joined
    rw [hsn, hnn]
  rw [hjoined] at hnext hsize
  exact
    { next_block := hnext
      size_block := hsize
      next_entry := fun h => absurd rfl h
      size_entry := fun h => absurd rfl h
      outside := fun x hx _ => (hout x hx).trans (setBlockSize_outside hx) }

/-! ## Walking along the list -/

/-- `q` is the entry after `p`. -/
def Links (m : Mem) (p q : ℕ) : Prop := nextFreeBlock m p = q

/-- The list from `xStart` on consists of the cells `L`. -/
structure Linked (xStart : ℕ) (m : Mem) (L : List Cell) : Prop where
  links : (xStart :: L.map Cell.addr).IsChain (Links m)
  sizes : ∀ c ∈ L, blockSize m c.addr = c.size
  start : blockSize m xStart = 0

theorem insertionPoint_eq {rest : List ℕ} (hn : ¬ n < a) : ∀ (L : List ℕ) (x fuel : ℕ),
    (x :: (L ++ n :: rest)).IsChain (Links m) → (∀ y ∈ L, y < a) → L.length < fuel →
    insertionPoint m a fuel x = some (L.getLastD x)
  | _, _, 0, _, _, hf => absurd hf (Nat.not_lt_zero _)
  | [], x, fuel + 1, hc, _, _ => by
    have hx : nextFreeBlock m x = n := (List.isChain_cons_cons.1 hc).1
    rw [insertionPoint, hx, if_neg hn]
    rfl
  | y :: L, x, fuel + 1, hc, hL, hf => by
    obtain ⟨hx, hc⟩ := List.isChain_cons_cons.1 hc
    have hx : nextFreeBlock m x = y := hx
    rw [insertionPoint, hx, if_pos (hL y List.mem_cons_self), List.getLastD_cons]
    exact insertionPoint_eq hn L y fuel hc (fun z hz => hL z (List.mem_cons_of_mem _ hz))
      (Nat.lt_of_succ_lt_succ hf)

theorem findBlock_eq {rest : List ℕ} {want : ℕ} (hp : want ≤ blockSize m p ∨ nextFreeBlock m p = 0) :
    ∀ (L : List ℕ) (x fuel : ℕ), (x :: (L ++ p :: rest)).IsChain (Links m) →
      (∀ y ∈ L, blockSize m y < want ∧ nextFreeBlock m y ≠ 0) → L.length < fuel →
      findBlock m want fuel x (nextFreeBlock m x) = some (L.getLastD x, p)
  | _, _, 0, _, _, hf => absurd hf (Nat.not_lt_zero _)
  | [], x, fuel + 1, hc, _, _ => by
    have hx : nextFreeBlock m x = p := (List.isChain_cons_cons.1 hc).1
    rw [findBlock, hx, if_neg (by omega)]
    rfl
  | y :: L, x, fuel + 1, hc, hL, hf => by
    obtain ⟨hx, hc⟩ := List.isChain_cons_cons.1 hc
    have hx : nextFreeBlock m x = y := hx
    rw [findBlock, hx, if_pos (hL y List.mem_cons_self), List.getLastD_cons]
    exact findBlock_eq hp L y fuel hc (fun z hz => hL z (List.mem_cons_of_mem _ hz))
      (Nat.lt_of_succ_lt_succ hf)

/-! ## Inserting a block into the list -/

/-- A chain whose tail is exchanged. -/
theorem isChain_relink {R R' : ℕ → ℕ → Prop} {K K' : List ℕ} :
    ∀ {B : List ℕ}, (B ++ it :: K).IsChain R → (∀ x ∈ B, ∀ y, R x y → R' x y) →
      (it :: K').IsChain R' → (B ++ it :: K').IsChain R'
  | [], _, _, h => h
  | [x], hc, hB, h => by
    obtain ⟨hx, _⟩ := List.isChain_cons_cons.1 hc
    exact List.isChain_cons_cons.2 ⟨hB x (by simp) _ hx, h⟩
  | x :: y :: B, hc, hB, h => by
    obtain ⟨hx, hc⟩ := List.isChain_cons_cons.1 hc
    exact List.isChain_cons_cons.2 ⟨hB x (by simp) _ hx,
      isChain_relink (B := y :: B) hc (fun z hz => hB z (List.mem_cons_of_mem _ hz)) h⟩

theorem Inserted.next_apart {t sz : ℕ} (h : Inserted m m' it a b t sz) (hi : Apart it p)
    (ha : Apart a p) : nextFreeBlock m' p = nextFreeBlock m p := by
  refine nextFreeBlock_congr fun x h1 h2 => h.outside x ?_ ?_ <;>
  · unfold Outside Apart at *
    omega

theorem Inserted.size_apart {t sz : ℕ} (h : Inserted m m' it a b t sz) (hi : Apart it p)
    (ha : Apart a p) : blockSize m' p = blockSize m p := by
  refine blockSize_congr fun x h1 h2 => h.outside x ?_ ?_ <;>
  · unfold Outside Apart at *
    omega

/-- Headers that the insertion of a block between `it` and `n :: R` leaves alone. -/
theorem apart_of_pairwise {B R : List ℕ} (h : (B ++ it :: a :: R).Pairwise Apart) :
    Apart it a ∧ (∀ x ∈ B, Apart it x ∧ Apart a x) ∧ ∀ x ∈ R, Apart it x ∧ Apart a x := by
  obtain ⟨_, htail, hB⟩ := List.pairwise_append.1 h
  obtain ⟨hit, htail⟩ := List.pairwise_cons.1 htail
  obtain ⟨ha, _⟩ := List.pairwise_cons.1 htail
  refine ⟨hit a List.mem_cons_self, ?_, ?_⟩
  · exact fun x hx => ⟨(hB x hx it (by simp)).symm, (hB x hx a (by simp)).symm⟩
  · exact fun x hx => ⟨hit x (List.mem_cons_of_mem _ hx), ha x hx⟩

theorem links_keep {L : List ℕ} (h : L.IsChain (Links m))
    (hL : ∀ x ∈ L, nextFreeBlock m' x = nextFreeBlock m x) : L.IsChain (Links m') :=
  h.imp_of_mem_imp fun x _ hx _ hl => (hL x hx).trans hl

variable {xStart e : ℕ} {A R : List Cell} {c k : Cell} {B : List ℕ}

/-- The block `c` in front of the entry `k`, joined with it if it can be. -/
def linkIn (e : ℕ) (c k : Cell) (R : List Cell) : List Cell :=
  if word (c.addr + c.size) = k.addr ∧ k.addr ≠ e then { c with size := c.size + k.size } :: R
  else c :: k :: R

/-- The list behind `it` once the block at `b` has been inserted. -/
theorem Inserted.links_behind {t sz : ℕ} (hI : Inserted m m' it a b t sz) (hlast : k.addr ≠ e → R ≠ [])
    (hk : ∀ x ∈ k.addr :: R.map Cell.addr, nextFreeBlock m' x = nextFreeBlock m x)
    (hlinks : (k.addr :: R.map Cell.addr).IsChain (Links m)) (hb : c.addr = b)
    (ht : t = (joined m e b c.size k.addr).1) :
    ((linkIn e c k R).map Cell.addr).IsChain (Links m') ∧
      ∃ rest, (linkIn e c k R).map Cell.addr = b :: rest := by
  subst hb
  have hnext := hI.next_block
  unfold linkIn
  unfold joined at ht
  by_cases hj : word (c.addr + c.size) = k.addr ∧ k.addr ≠ e
  · rw [if_pos hj] at ht ⊢
    refine ⟨?_, _, rfl⟩
    cases R with
    | nil => exact absurd rfl (hlast hj.2)
    | cons r R =>
      obtain ⟨hkr, hR⟩ := List.isChain_cons_cons.1 hlinks
      refine List.isChain_cons_cons.2 ⟨?_, links_keep hR fun x hx => hk x (by simp_all)⟩
      exact hnext.trans (ht.trans hkr)
  · rw [if_neg hj] at ht ⊢
    refine ⟨?_, _, rfl⟩
    exact List.isChain_cons_cons.2 ⟨hnext.trans ht, links_keep hlinks hk⟩

theorem Inserted.sizes_behind {t sz : ℕ} (hI : Inserted m m' it a b t sz)
    (hk : ∀ x ∈ k :: R, blockSize m' x.addr = x.size) (hb : c.addr = b)
    (hsz : sz = (joined m e b c.size k.addr).2) (hksize : blockSize m k.addr = k.size) :
    ∀ x ∈ linkIn e c k R, blockSize m' x.addr = x.size := by
  subst hb
  have hsize := hI.size_block
  unfold linkIn
  unfold joined at hsz
  by_cases hj : word (c.addr + c.size) = k.addr ∧ k.addr ≠ e
  · rw [if_pos hj] at hsz ⊢
    intro x hx
    rcases List.mem_cons.1 hx with rfl | hx
    · rw [hsize, hsz, hksize]
    · exact hk x (List.mem_cons_of_mem _ hx)
  · rw [if_neg hj] at hsz ⊢
    intro x hx
    rcases List.mem_cons.1 hx with rfl | hx
    · rw [hsize, hsz]
    · exact hk x hx

/-- The block does not touch the entry before it. -/
theorem Linked.insert_plain (hl : Linked xStart m (A ++ k :: R)) (hc : blockSize m c.addr = c.size)
    (hit : xStart :: A.map Cell.addr = B ++ [it])
    (hsep : (B ++ it :: c.addr :: (k :: R).map Cell.addr).Pairwise Apart)
    (hsum : c.size + k.size < 2 ^ 32) (hclt : c.addr < 2 ^ 32) (hlast : k.addr ≠ e → R ≠ [])
    (hP : word (it + blockSize m it) ≠ c.addr) :
    Linked xStart (insertAfter e m it c.addr) (A ++ linkIn e c k R) ∧
      ∀ x, Outside it x → Outside c.addr x → insertAfter e m it c.addr x = m x := by
  obtain ⟨hic, hB, hR⟩ := apart_of_pairwise hsep
  have hchain : (B ++ it :: (k :: R).map Cell.addr).IsChain (Links m) := by
    have h := hl.links
    rwa [List.map_append, ← List.cons_append, hit, List.append_assoc, List.singleton_append] at h
  obtain ⟨hBit, hitk⟩ := List.isChain_split.1 hchain
  have hn : nextFreeBlock m it = k.addr := (List.isChain_cons_cons.1 hitk).1
  have hksize : blockSize m k.addr = k.size := hl.sizes k (by simp)
  have hI := insertAfter_plain e hn hic (hR k.addr (by simp)).1 (hR k.addr (by simp)).2
    (by rw [hc, hksize]; exact hsum) hclt hP
  have hnext : ∀ x ∈ (k :: R).map Cell.addr,
      nextFreeBlock (insertAfter e m it c.addr) x = nextFreeBlock m x :=
    fun x hx => hI.next_apart (hR x hx).1 (hR x hx).2
  obtain ⟨hbehind, rest, hrest⟩ := hI.links_behind (c := c) (e := e) hlast hnext
    (List.isChain_cons_cons.1 hitk).2 rfl (by rw [hc])
  -- the entries up to `it` keep their sizes
  have hfront : ∀ x ∈ xStart :: A.map Cell.addr,
      blockSize (insertAfter e m it c.addr) x = blockSize m x := by
    intro x hx
    rw [hit] at hx
    rcases List.mem_append.1 hx with hx | hx
    · exact hI.size_apart (hB x hx).1 (hB x hx).2
    · obtain rfl : x = it := by simpa using hx
      exact hI.size_entry hic.ne
  refine ⟨⟨?_, ?_, ?_⟩, hI.outside⟩
  · rw [List.map_append, ← List.cons_append, hit, List.append_assoc, List.singleton_append]
    refine isChain_relink hchain ?_ ?_
    · exact fun x hx y h => (hI.next_apart (hB x hx).1 (hB x hx).2).trans h
    · rw [hrest] at hbehind ⊢
      exact List.isChain_cons_cons.2 ⟨hI.next_entry hic.ne, hbehind⟩
  · intro x hx
    rcases List.mem_append.1 hx with hx | hx
    · rw [hfront x.addr (List.mem_cons_of_mem _ (List.mem_map_of_mem hx))]
      exact hl.sizes x (List.mem_append_left _ hx)
    · refine hI.sizes_behind (c := c) (e := e) ?_ rfl (by rw [hc]) hksize x hx
      intro y hy
      have hya := hR y.addr (List.mem_map_of_mem hy)
      rw [hI.size_apart hya.1 hya.2]
      exact hl.sizes y (List.mem_append_right _ hy)
  · exact (hfront xStart List.mem_cons_self).trans hl.start

/-- The block `c` begins where the entry `d` ends. -/
theorem Linked.insert_merged {d : Cell} (hl : Linked xStart m (A ++ d :: k :: R))
    (hc : blockSize m c.addr = c.size)
    (hsep : ((xStart :: A.map Cell.addr) ++
      d.addr :: c.addr :: (k :: R).map Cell.addr).Pairwise Apart)
    (hsum : d.size + c.size + k.size < 2 ^ 32) (hlast : k.addr ≠ e → R ≠ [])
    (hP : word (d.addr + d.size) = c.addr) :
    Linked xStart (insertAfter e m d.addr c.addr)
        (A ++ linkIn e { d with size := d.size + c.size } k R) ∧
      ∀ x, Outside d.addr x → Outside c.addr x → insertAfter e m d.addr c.addr x = m x := by
  obtain ⟨hdc, hB, hR⟩ := apart_of_pairwise hsep
  have hchain : ((xStart :: A.map Cell.addr) ++ d.addr :: (k :: R).map Cell.addr).IsChain
      (Links m) := by
    have h := hl.links
    rwa [List.map_append, List.map_cons, ← List.cons_append] at h
  have hitk := (List.isChain_split.1 hchain).2
  have hn : nextFreeBlock m d.addr = k.addr := (List.isChain_cons_cons.1 hitk).1
  have hksize : blockSize m k.addr = k.size := hl.sizes k (by simp)
  have hdsize : blockSize m d.addr = d.size := hl.sizes d (by simp)
  have hI := insertAfter_merged e hn (hR k.addr (by simp)).1
    (by rw [hc, hksize, hdsize]; exact hsum) (by rw [hdsize]; exact hP)
  have hnext : ∀ x ∈ (k :: R).map Cell.addr,
      nextFreeBlock (insertAfter e m d.addr c.addr) x = nextFreeBlock m x :=
    fun x hx => hI.next_apart (hR x hx).1 (hR x hx).2
  obtain ⟨hbehind, rest, hrest⟩ := hI.links_behind (c := { d with size := d.size + c.size })
    (e := e) hlast hnext (List.isChain_cons_cons.1 hitk).2 rfl (by rw [hc, hdsize])
  refine ⟨⟨?_, ?_, ?_⟩, hI.outside⟩
  · rw [List.map_append, ← List.cons_append, hrest]
    rw [hrest] at hbehind
    exact isChain_relink hchain
      (fun x hx y h => (hI.next_apart (hB x hx).1 (hB x hx).2).trans h) hbehind
  · intro x hx
    rcases List.mem_append.1 hx with hx | hx
    · have hxa := hB x.addr (List.mem_cons_of_mem _ (List.mem_map_of_mem hx))
      rw [hI.size_apart hxa.1 hxa.2]
      exact hl.sizes x (List.mem_append_left _ hx)
    · refine hI.sizes_behind (c := { d with size := d.size + c.size }) (e := e) ?_ rfl
        (by rw [hc, hdsize]) hksize x hx
      intro y hy
      have hya := hR y.addr (List.mem_map_of_mem hy)
      rw [hI.size_apart hya.1 hya.2]
      exact hl.sizes y (by simp_all)
  · have hstart := hB xStart List.mem_cons_self
    exact (hI.size_apart hstart.1 hstart.2).trans hl.start

end Heap5
