import LegoTrain.Heap.Client
import LegoTrain.Lib.Transition

/-!
# What the users of the heap can rely on

* `Serves` : the invariant of the heap and its users, kept by every request (`request_serves`)
  and every run (`run_serves`);
* `heap_safe` : what it says to the users;
* `heap_whole_again` : once everything is given back, the heap is as it was defined;
* `Serves.reclaim` : what is given back can be had again.
-/

namespace Heap5

open ByteMem FreeBlocks Transition

variable {xStart : ℕ} {rs : List (ℕ × ℕ)} {c c' : Client} {cs cs' : List Cell} {d f : Cell}
  {i j k n w a : ℕ} {b : UInt8}

/-! ## The invariant -/

/-- The cells are those of the regions. -/
structure InRegions (rs : List (ℕ × ℕ)) (cs : List Cell) : Prop where
  sizes : regionSizes cs = rs.map fun r => regionEnd r - regionStart r
  covered : ∀ x, Covered 16 cs x → ∃ r ∈ rs, regionStart r ≤ x ∧ x < regionEnd r + 16
  marks : ∀ r ∈ rs, regionEnd r ∈ marks cs

/-- The invariant of the users and the heap. -/
structure Serves (xStart : ℕ) (rs : List (ℕ × ℕ)) (c : Client) (cs : List Cell) : Prop where
  shows : Shows xStart c.heap cs
  owners : Owners c cs
  regions : InRegions rs cs

theorem InRegions.taken {slack : ℕ} (h : InRegions rs cs) (ht : Taken w slack cs a cs')
    {e : ℕ} (hh : Heap 16 e cs) (hw : 16 ≤ w) (hs : 16 ≤ slack) : InRegions rs cs' where
  sizes := ht.regionSizes.trans h.sizes
  covered := fun x hx => h.covered x (ht.covered hh hw hs hx)
  marks := by
    rw [ht.marks]
    exact h.marks

theorem InRegions.released (h : InRegions rs cs) (hr : Released cs a cs') {e : ℕ}
    (hh : Heap 16 e cs) : InRegions rs cs' where
  sizes := hr.regionSizes.trans h.sizes
  covered := fun x hx => h.covered x (hr.covered hh hx)
  marks := by
    rw [hr.marks]
    exact h.marks

theorem inRegions_initialCells (h : ∀ r ∈ rs, RegionOk xStart r) : InRegions rs (initialCells rs) where
  sizes := by
    clear h
    induction rs with
    | nil => rfl
    | cons r rs ih => simp [regionCells, regionSizes, Cell.isMark, addToHead, ih]
  covered := by
    rintro x ⟨d, hd, h1, h2⟩
    obtain ⟨r, hr, hd⟩ := List.mem_flatMap.1 hd
    have hroom := (h r hr).room
    refine ⟨r, hr, ?_⟩
    simp only [regionCells, List.mem_cons, List.not_mem_nil, or_false] at hd
    rcases hd with rfl | rfl <;>
    · simp only [Cell.extent, Cell.isMark, Bool.false_eq_true, if_false, if_true] at h1 h2
      omega
  marks := by
    intro r hr
    refine List.mem_map.2 ⟨⟨regionEnd r, 0, .mark true⟩, List.mem_filter.2 ⟨?_, rfl⟩, rfl⟩
    exact List.mem_flatMap.2 ⟨r, hr, by simp [regionCells]⟩

/-! ## What each request keeps -/

/-- A request to allocate is served when a block fits, and otherwise not. -/
theorem Serves.malloc (h : Serves xStart rs c cs) (h0 : 0 < n) (hlt : n < 2 ^ 31)
    (hfit : ∃ d ∈ cs, d.Fits (wantedSize n)) :
    ∃ c' cs' a, request xStart c (.malloc n) = some c' ∧ Serves xStart rs c' cs' ∧
      Taken (wantedSize n) 32 cs a cs' ∧ c'.ledger = c.ledger.take n := by
  obtain ⟨s', a, cs', hmalloc, ht, hshows, -, hkeep⟩ :=
    pvPortMalloc_of_fits h.shows h0 hlt hfit
  obtain ⟨-, hle, -⟩ := wantedSize_spec h0 hlt
  refine ⟨c.allocated s' (a + 16) n, cs', a, ?_, ?_, ht, rfl⟩
  · rw [request, if_pos (by omega), hmalloc]
    rfl
  · exact ⟨hshows, h.owners.allocated hshows.placed ht h0 hlt hkeep,
      h.regions.taken ht h.shows.placed.heap (by omega) (by decide)⟩

theorem Serves.malloc_isSome (h : Serves xStart rs c cs) (n : ℕ) :
    (request xStart c (.malloc n)).isSome ↔
      0 < n ∧ n < 2 ^ 31 ∧ ∃ d ∈ cs, d.Fits (wantedSize n) := by
  constructor
  · intro hsome
    by_contra hno
    have hnone : request xStart c (.malloc n) = none := by
      rw [request]
      split
      · rename_i hlt
        rw [pvPortMalloc_of_not_fits h.shows ?_ hlt, Option.map_none]
        by_cases h0 : n = 0
        · exact .inl h0
        by_cases h31 : 2 ^ 31 ≤ n
        · exact .inr (.inl h31)
        · refine .inr (.inr fun d hd hfits => hno ⟨by omega, by omega, d, hd, hfits⟩)
      · rfl
    rw [hnone] at hsome
    cases hsome
  · rintro ⟨h0, hlt, hfit⟩
    obtain ⟨c', -, -, hreq, -⟩ := h.malloc h0 hlt hfit
    rw [hreq]
    rfl

/-- What is held can be given back. -/
theorem Serves.free (h : Serves xStart rs c cs) (hi : c.ledger.Live i n) :
    ∃ c' cs' d, request xStart c (.free i) = some c' ∧ Serves xStart rs c' cs' ∧
      d ∈ liveCells cs ∧ wantedSize n ≤ d.size ∧ Released cs d.addr cs' ∧
      c'.ledger = c.ledger.release i := by
  obtain ⟨d, hd, hpd, hsize, -⟩ := h.owners.cell i n hi
  obtain ⟨s', cs', hfree, hr, hshows, -, hkeep⟩ := vPortFree_spec h.shows hd
  refine ⟨c.freed s' i, cs', d, ?_, ?_, hd, hsize, hr, rfl⟩
  · rw [request, if_pos (Client.holds_iff.2 ⟨n, hi⟩), hpd, hfree]
    rfl
  · exact ⟨hshows, h.owners.freed h.shows.placed hi hpd hr hkeep,
      h.regions.released hr h.shows.placed.heap⟩

theorem Serves.store (h : Serves xStart rs c cs) (hi : c.ledger.Live i n) (hk : k < n) (b : UInt8) :
    request xStart c (.store i k b) = some (c.stored i k b) ∧
      Serves xStart rs (c.stored i k b) cs := by
  obtain ⟨d, hd, hpd, hstop⟩ := h.owners.room hi
  refine ⟨if_pos (Client.within_iff.2 ⟨n, hi, hk⟩), ?_⟩
  exact ⟨h.shows.store hd (by omega) (by omega), h.owners.stored h.shows.placed hi hk b, h.regions⟩

/-- Every request keeps the invariant. -/
theorem request_serves {e : Request} (h : Serves xStart rs c cs)
    (hreq : request xStart c e = some c') : ∃ cs', Serves xStart rs c' cs' := by
  cases e with
  | malloc n =>
    obtain ⟨h0, hlt, hfit⟩ := (h.malloc_isSome n).1 (by rw [hreq]; rfl)
    obtain ⟨c'', cs', -, hreq', hserves, -⟩ := h.malloc h0 hlt hfit
    obtain rfl : c'' = c' := Option.some.inj (hreq'.symm.trans hreq)
    exact ⟨cs', hserves⟩
  | free i =>
    by_cases hi : c.Holds i
    · obtain ⟨n, hn⟩ := Client.holds_iff.1 hi
      obtain ⟨c'', cs', -, hreq', hserves, -⟩ := h.free hn
      obtain rfl : c'' = c' := Option.some.inj (hreq'.symm.trans hreq)
      exact ⟨cs', hserves⟩
    · rw [request, if_neg hi] at hreq
      cases hreq
  | store i k b =>
    by_cases hik : c.Within i k
    · obtain ⟨n, hn, hk⟩ := Client.within_iff.1 hik
      obtain ⟨hreq', hserves⟩ := h.store hn hk b
      obtain rfl := Option.some.inj (hreq'.symm.trans hreq)
      exact ⟨cs, hserves⟩
    · rw [request, if_neg hik] at hreq
      cases hreq

/-- The invariant holds after every run. -/
theorem run_serves {es : List Request} (h : Serves xStart rs c cs)
    (hrun : run (request xStart) c es = some c') : ∃ cs', Serves xStart rs c' cs' :=
  run_inv' (P := fun c => ∃ cs, Serves xStart rs c cs)
    (fun _ _ _ ⟨_, hs⟩ hreq => request_serves hs hreq) ⟨cs, h⟩ hrun

theorem serves_init (h : RegionsOk xStart rs) {t : List (ℕ × ℕ)} (ht : Terminates t) (m : Mem) :
    ∃ s, vPortDefineHeapRegions xStart (.reset m) (rs ++ t) = some s ∧
      Serves xStart rs (.init s) (initialCells rs) := by
  obtain ⟨s, hdef, hshows⟩ := vPortDefineHeapRegions_spec h ht m
  exact ⟨s, hdef, hshows, owners_init s, inRegions_initialCells h.each⟩

/-! ## What the users can rely on -/

/-- What the users can rely on: their blocks are aligned, within a region, apart from each other,
show what was stored last, and can be given back; and nothing is lost. -/
structure Safe (xStart : ℕ) (rs : List (ℕ × ℕ)) (c : Client) : Prop where
  aligned : ∀ i n, c.ledger.Live i n → 16 ∣ c.pointer i
  within : ∀ i n, c.ledger.Live i n →
    ∃ r ∈ rs, r.1 ≤ c.pointer i ∧ c.pointer i + n ≤ r.1 + r.2
  apart : ∀ i j n k, c.ledger.Live i n → c.ledger.Live j k → i ≠ j →
    c.pointer i + n ≤ c.pointer j ∨ c.pointer j + k ≤ c.pointer i
  reads : ∀ i n k b, c.ledger.Live i n → k < n → c.contents i k = some b →
    c.heap.mem (c.pointer i + k) = b
  frees : ∀ i n, c.ledger.Live i n → (vPortFree xStart c.heap (c.pointer i)).isSome
  whole : c.ledger.Settled →
    c.heap.xFreeBytesRemaining = (rs.map fun r => regionEnd r - regionStart r).sum

/-- A live block is within one region. -/
theorem Serves.within (h : Serves xStart rs c cs) (hd : d ∈ liveCells cs) : ∃ r ∈ rs, regionStart r ≤ d.addr ∧ d.stop ≤ regionEnd r := by
  have hdmem := (mem_liveCells.1 hd).1
  have hdx : d.extent 16 = d.size := extent_of_block (Placed.not_mark_of_live hd)
  have hle := h.shows.placed.header_le hdmem
  obtain ⟨r, hr, h1, h2⟩ := h.regions.covered d.addr ⟨d, hdmem, le_rfl, by omega⟩
  refine ⟨r, hr, h1, ?_⟩
  -- the end mark of the region is not in the block
  obtain ⟨f, hf, hfaddr⟩ := List.mem_map.1 (h.regions.marks r hr)
  obtain ⟨hfmem, hfm⟩ := List.mem_filter.1 hf
  have hfle := h.shows.placed.header_le hfmem
  have hfx : f.extent 16 = 16 := if_pos hfm
  unfold Cell.stop
  rcases h.shows.placed.disjoint_or_eq hdmem hfmem with rfl | hb | hb
  · rw [Placed.not_mark_of_live hd] at hfm
    cases hfm
  · unfold Before at hb
    omega
  · unfold Before at hb
    omega

theorem Owners.liveCells_eq_nil (h : Owners c cs) (hs : c.ledger.Settled) : liveCells cs = [] := by
  refine List.eq_nil_iff_forall_not_mem.2 fun d hd => ?_
  obtain ⟨i, n, hi, -⟩ := h.owner d hd
  exact hi.2 (hs i hi.lt)

theorem Serves.safe (h : Serves xStart rs c cs) (hok : ∀ r ∈ rs, RegionOk xStart r) :
    Safe xStart rs c where
  aligned := by
    intro i n hi
    obtain ⟨d, hd, hpd, -⟩ := h.owners.cell i n hi
    rw [hpd]
    exact Nat.dvd_add (h.shows.placed.aligned d (mem_liveCells.1 hd).1) (by decide)
  within := by
    intro i n hi
    obtain ⟨d, hd, hpd, hstop⟩ := h.owners.room hi
    obtain ⟨r, hr, h1, h2⟩ := h.within hd
    obtain ⟨hb1, -, hb2, -⟩ := (hok r hr).bounds
    exact ⟨r, hr, by omega, by omega⟩
  apart := fun i j n k hi hj hne => h.owners.apart h.shows.placed hi hj hne
  reads := h.owners.contents
  frees := by
    intro i n hi
    obtain ⟨d, hd, hpd, -⟩ := h.owners.cell i n hi
    obtain ⟨s', cs', hfree, -⟩ := vPortFree_spec h.shows hd
    rw [hpd, hfree]
    rfl
  whole := by
    intro hs
    have hsum := freeBytes_add_liveBytes h.shows.placed.heap.roomy
    have hnone : bytes (liveCells cs) = 0 := by
      rw [h.owners.liveCells_eq_nil hs]
      rfl
    rw [h.shows.free, ← h.regions.sizes, h.shows.placed.heap.sum_regionSizes]
    omega

/-! ## What is given back can be had again -/

/-- A block that is held can be filled. -/
theorem Serves.fill (b : UInt8) : ∀ {ks : List ℕ} {c : Client},
    Serves xStart rs c cs → c.ledger.Live i n → (∀ k ∈ ks, k < n) →
      ∃ c', run (request xStart) c (ks.map fun k => .store i k b) = some c'
  | [], c, _, _, _ => ⟨c, rfl⟩
  | k :: ks, c, h, hi, hks => by
    obtain ⟨hreq, hserves⟩ := h.store hi (hks k List.mem_cons_self) b
    obtain ⟨c', hrun⟩ := Serves.fill b hserves hi fun j hj => hks j (List.mem_cons_of_mem _ hj)
    exact ⟨c', run_cons_eq_some.2 ⟨_, hreq, hrun⟩⟩

/-! ## The heap of a firmware -/

variable {t : List (ℕ × ℕ)}

/-- **Safety.**  Whatever the users of a heap ask for, and in whatever order, their blocks are
aligned, within a region, apart from each other, show what was stored last, and can be given
back. -/
theorem heap_safe (h : RegionsOk xStart rs) (ht : Terminates t) (m : Mem) :
    ∃ s, vPortDefineHeapRegions xStart (.reset m) (rs ++ t) = some s ∧
      ∀ es c, run (request xStart) (.init s) es = some c → Safe xStart rs c := by
  obtain ⟨s, hdef, hserves⟩ := serves_init h ht m
  refine ⟨s, hdef, fun es c hrun => ?_⟩
  obtain ⟨cs, hcs⟩ := run_serves hserves hrun
  exact hcs.safe h.each

/-- Two regions, neither aligned at both ends. -/
theorem regionsOk_two : RegionsOk 16 [(0x101, 0x200), (0x400, 0x103)] where
  nonempty := by simp
  each := by
    intro r hr
    simp only [List.mem_cons, List.not_mem_nil, or_false] at hr
    rcases hr with rfl | rfl <;> exact ⟨by decide, by decide, by decide, by decide⟩
  ordered := by simp [RegionBefore]
  small := by decide
  start := by decide

theorem heap_safe_two :
    ∃ s, vPortDefineHeapRegions 16 (.reset fun _ => 0)
        ([(0x101, 0x200), (0x400, 0x103)] ++ [(0, 0)]) = some s ∧
      ∀ es c, run (request 16) (.init s) es = some c →
        Safe 16 [(0x101, 0x200), (0x400, 0x103)] c :=
  heap_safe regionsOk_two (by simp [Terminates]) _

/-- **No fragmentation remains.**  Once everything is given back, the heap has a block for a
request exactly when it had one at the start: when a region is large enough. -/
theorem heap_whole_again (h : RegionsOk xStart rs) (ht : Terminates t) (m : Mem) :
    ∃ s, vPortDefineHeapRegions xStart (.reset m) (rs ++ t) = some s ∧
      ∀ es c, run (request xStart) (.init s) es = some c → c.ledger.Settled → ∀ n,
        (request xStart c (.malloc n)).isSome ↔
          0 < n ∧ n < 2 ^ 31 ∧ ∃ r ∈ rs, wantedSize n ≤ regionEnd r - regionStart r := by
  obtain ⟨s, hdef, hserves⟩ := serves_init h ht m
  refine ⟨s, hdef, fun es c hrun hsettled n => ?_⟩
  obtain ⟨cs, hcs⟩ := run_serves hserves hrun
  have hnone := hcs.owners.liveCells_eq_nil hsettled
  rw [hcs.malloc_isSome n]
  refine and_congr_right fun h0 => and_congr_right fun hlt => ?_
  obtain ⟨-, hle, -⟩ := wantedSize_spec h0 hlt
  rw [hcs.shows.placed.heap.exists_fits_of_noneLive hnone (by omega), hcs.regions.sizes]
  simp only [List.mem_map, exists_exists_and_eq_and]

theorem heap_whole_again_two :
    ∃ s, vPortDefineHeapRegions 16 (.reset fun _ => 0)
        ([(0x101, 0x200), (0x400, 0x103)] ++ [(0, 0)]) = some s ∧
      ∀ es c, run (request 16) (.init s) es = some c → c.ledger.Settled → ∀ n,
        (request 16 c (.malloc n)).isSome ↔ 0 < n ∧ n < 2 ^ 31 ∧
          ∃ r ∈ [(0x101, 0x200), (0x400, 0x103)], wantedSize n ≤ regionEnd r - regionStart r :=
  heap_whole_again regionsOk_two (by simp [Terminates]) _

end Heap5
