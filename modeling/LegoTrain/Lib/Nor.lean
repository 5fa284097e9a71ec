import LegoTrain.Lib.ByteMem

/-!
# NOR flash arrays

A NOR flash array is a byte memory with two operations that change it: erasing a
range sets its bytes to `0xFF`, and programming a byte can only clear bits, that
is, it stores the bitwise AND of the old byte and the data.

* `program_of_blank` : on erased bytes, programming is an ordinary write;
* `erase_outside`, `program_outside` : what the operations leave alone.
-/

namespace Nor

open ByteMem

/-! ## Erasing -/

/-- Erase the offsets `lo ≤ x < hi`. -/
def erase (m : Mem) (lo hi : ℕ) : Mem := fun x => if lo ≤ x ∧ x < hi then 0xFF else m x

/-- Every byte of `lo ≤ x < hi` is in the erased state. -/
def Blank (m : Mem) (lo hi : ℕ) : Prop := ∀ x, lo ≤ x → x < hi → m x = 0xFF

theorem erase_outside {m : Mem} {lo hi x : ℕ} (h : x < lo ∨ hi ≤ x) : erase m lo hi x = m x := by
  rw [erase, if_neg (by omega)]

theorem erase_inside {m : Mem} {lo hi x : ℕ} (h : lo ≤ x) (h' : x < hi) :
    erase m lo hi x = 0xFF :=
  if_pos ⟨h, h'⟩

theorem blank_erase (m : Mem) (lo hi : ℕ) : Blank (erase m lo hi) lo hi :=
  fun _ h h' => erase_inside h h'

theorem Blank.mono {m : Mem} {lo hi lo' hi' : ℕ} (h : Blank m lo hi) (hlo : lo ≤ lo')
    (hhi : hi' ≤ hi) : Blank m lo' hi' :=
  fun x hx hx' => h x (by omega) (by omega)

/-- Erasing keeps what was already erased. -/
theorem Blank.erase {m : Mem} {lo hi : ℕ} (h : Blank m lo hi) (lo' hi' : ℕ) :
    Blank (Nor.erase m lo' hi') lo hi := by
  intro x hx hx'
  by_cases hc : lo' ≤ x ∧ x < hi'
  · exact erase_inside hc.1 hc.2
  · rw [erase_outside (by omega), h x hx hx']

/-- Two erasures that meet are one. -/
theorem erase_erase {m : Mem} {a b c : ℕ} (hab : a ≤ b) (hbc : b ≤ c) :
    erase (erase m a b) b c = erase m a c := by
  funext x
  by_cases hb : b ≤ x ∧ x < c
  · rw [erase_inside hb.1 hb.2, erase_inside (by omega) hb.2]
  · rw [erase_outside (by omega)]
    by_cases ha : a ≤ x ∧ x < b
    · rw [erase_inside ha.1 ha.2, erase_inside ha.1 (by omega)]
    · rw [erase_outside (by omega), erase_outside (by omega)]

/-! ## Programming -/

/-- Program the byte string `bs` from offset `a` on. -/
def program (m : Mem) (a : ℕ) (bs : List UInt8) : Mem :=
  fun x => if a ≤ x then m x &&& bs.getD (x - a) 0xFF else m x

theorem and_ff (b : UInt8) : b &&& 0xFF = b := by
  have h : (0xFF : UInt8) = -1 := by decide
  rw [h, UInt8.and_neg_one]

theorem ff_and (b : UInt8) : 0xFF &&& b = b := by
  rw [UInt8.and_comm, and_ff]

@[simp] theorem program_nil (m : Mem) (a : ℕ) : program m a [] = m := by
  funext x
  simp [program, and_ff]

theorem program_outside {m : Mem} {a x : ℕ} {bs : List UInt8}
    (h : x < a ∨ a + bs.length ≤ x) : program m a bs x = m x := by
  rcases h with h | h
  · rw [program, if_neg (by omega)]
  · rw [program, if_pos (by omega), List.getD_eq_default _ _ (by omega), and_ff]

theorem program_inside {m : Mem} {a i : ℕ} {bs : List UInt8} (h : i < bs.length) :
    program m a bs (a + i) = m (a + i) &&& bs.getD i 0 := by
  rw [program, if_pos (by omega), Nat.add_sub_cancel_left, List.getD_eq_getElem _ _ h,
    List.getD_eq_getElem _ _ h]

theorem program_append (m : Mem) (a : ℕ) (bs cs : List UInt8) :
    program m a (bs ++ cs) = program (program m a bs) (a + bs.length) cs := by
  have hlen : (bs ++ cs).length = bs.length + cs.length := List.length_append
  funext x
  by_cases hx : x < a ∨ a + (bs ++ cs).length ≤ x
  · rw [program_outside hx, program_outside (by omega), program_outside (by omega)]
  obtain ⟨i, rfl⟩ := Nat.exists_eq_add_of_le (show a ≤ x by omega)
  have hi : i < (bs ++ cs).length := by omega
  rw [program_inside hi]
  by_cases hb : i < bs.length
  · rw [program_outside (.inl (by omega)), program_inside hb, List.getD_append _ _ _ _ hb]
  · obtain ⟨j, rfl⟩ := Nat.exists_eq_add_of_le (Nat.not_lt.1 hb)
    have hj : j < cs.length := by omega
    rw [← Nat.add_assoc, program_inside hj, program_outside (.inr (by omega)),
      List.getD_append_right _ _ _ _ (by omega), Nat.add_sub_cancel_left]

theorem program_cons (m : Mem) (a : ℕ) (b : UInt8) (bs : List UInt8) :
    program m a (b :: bs) = program (program m a [b]) (a + 1) bs :=
  program_append m a [b] bs

/-- On erased bytes, programming stores the data. -/
theorem program_of_blank {m : Mem} {a : ℕ} {bs : List UInt8}
    (h : Blank m a (a + bs.length)) : program m a bs = write m a bs := by
  funext x
  by_cases hx : x < a ∨ a + bs.length ≤ x
  · rw [program_outside hx, write_outside hx]
  · obtain ⟨i, rfl⟩ := Nat.exists_eq_add_of_le (show a ≤ x by omega)
    have hi : i < bs.length := by omega
    rw [program_inside hi, write_of_mem hi, h (a + i) (by omega) (by omega), ff_and]

/-- Programming keeps the erased state of every range it misses. -/
theorem Blank.program {m : Mem} {lo hi a : ℕ} {bs : List UInt8} (h : Blank m lo hi)
    (hd : hi ≤ a ∨ a + bs.length ≤ lo) : Blank (Nor.program m a bs) lo hi := by
  intro x hx hx'
  rw [program_outside (by omega), h x hx hx']

end Nor
