import Mathlib.Data.List.Basic
import Mathlib.Algebra.Order.Ring.Int

/-!
# Packed structures

A packed structure is a list of members, each with its width.  Its bytes are those of its
members one after the other, and a member is found by cutting the bytes at its offset.

* `encode` : the bytes of a structure, from those of its members;
* `member` : the bytes of one member;
* `member_encode` : what was put in comes out;
* `emit` : members that are computed one by one, where each may fail;
* `padMod` and `padTo` : padding loops, and what they append.
-/

namespace Layout

variable {α β : Type*}

/-! ## Members -/

/-- The offset of a member. -/
def offset [DecidableEq α] : List (α × ℕ) → α → ℕ
  | [], _ => 0
  | (b, w) :: l, a => if b = a then 0 else w + offset l a

/-- The width of a member. -/
def width [DecidableEq α] : List (α × ℕ) → α → ℕ
  | [], _ => 0
  | (b, w) :: l, a => if b = a then w else width l a

/-- The bytes of a member. -/
def member [DecidableEq α] (l : List (α × ℕ)) (a : α) (bs : List β) : List β :=
  (bs.drop (offset l a)).take (width l a)

/-- The bytes of a structure. -/
def encode (l : List (α × ℕ)) (v : α → List β) : List β := l.flatMap fun f => v f.1

/-- Every member has the bytes that its width asks for. -/
def Fits (l : List (α × ℕ)) (v : α → List β) : Prop := ∀ f ∈ l, (v f.1).length = f.2

theorem encode_cons (f : α × ℕ) (l : List (α × ℕ)) (v : α → List β) :
    encode (f :: l) v = v f.1 ++ encode l v := List.flatMap_cons

theorem encode_append (l l' : List (α × ℕ)) (v : α → List β) :
    encode (l ++ l') v = encode l v ++ encode l' v := List.flatMap_append

theorem Fits.append {l l' : List (α × ℕ)} {v : α → List β} (h : Fits l v) (h' : Fits l' v) :
    Fits (l ++ l') v := by
  intro f hf
  rcases List.mem_append.1 hf with hf | hf
  · exact h f hf
  · exact h' f hf

theorem Fits.cons {f : α × ℕ} {l : List (α × ℕ)} {v : α → List β} (hf : (v f.1).length = f.2)
    (h : Fits l v) : Fits (f :: l) v := by
  intro g hg
  rcases List.mem_cons.1 hg with rfl | hg
  · exact hf
  · exact h g hg

/-- The size of a structure is the sum of its widths. -/
theorem length_encode {l : List (α × ℕ)} {v : α → List β} (h : Fits l v) :
    (encode l v).length = (l.map Prod.snd).sum := by
  induction l with
  | nil => rfl
  | cons f l ih =>
    rw [encode_cons, List.length_append, h f List.mem_cons_self,
      ih fun g hg => h g (List.mem_cons_of_mem f hg), List.map_cons, List.sum_cons]

/-- A run of members has their bytes. -/
theorem part_encode {l₁ l₂ : List (α × ℕ)} (l₃ : List (α × ℕ)) {v : α → List β} (h₁ : Fits l₁ v)
    (h₂ : Fits l₂ v) :
    ((encode (l₁ ++ (l₂ ++ l₃)) v).drop (l₁.map Prod.snd).sum).take (l₂.map Prod.snd).sum =
      encode l₂ v := by
  rw [encode_append, encode_append, ← length_encode h₁, ← length_encode h₂, List.drop_left,
    List.take_left]

/-- What was put in for a member comes out. -/
theorem member_encode [DecidableEq α] {l : List (α × ℕ)} {v : α → List β} (h : Fits l v) {a : α}
    (ha : a ∈ l.map Prod.fst) (rest : List β) : member l a (encode l v ++ rest) = v a := by
  induction l with
  | nil => cases ha
  | cons f l ih =>
    obtain ⟨b, w⟩ := f
    have hlen : (v b).length = w := h (b, w) List.mem_cons_self
    rw [encode_cons, List.append_assoc, member, offset, width]
    by_cases hb : b = a
    · rw [if_pos hb, if_pos hb, List.drop_zero, List.take_left' hlen, hb]
    · rw [if_neg hb, if_neg hb, ← hlen, List.drop_length_add_append]
      refine ih (fun g hg => h g (List.mem_cons_of_mem _ hg)) ?_
      rcases List.mem_cons.1 ha with heq | hmem
      · exact absurd heq.symm hb
      · exact hmem

theorem offset_add_width_le [DecidableEq α] {l : List (α × ℕ)} {a : α} (ha : a ∈ l.map Prod.fst) :
    offset l a + width l a ≤ (l.map Prod.snd).sum := by
  induction l with
  | nil => cases ha
  | cons f l ih =>
    obtain ⟨b, w⟩ := f
    rw [offset, width, List.map_cons, List.sum_cons]
    by_cases hb : b = a
    · rw [if_pos hb, if_pos hb]
      omega
    · rw [if_neg hb, if_neg hb]
      rcases List.mem_cons.1 ha with heq | hmem
      · exact absurd heq.symm hb
      · have hle := ih hmem
        omega

/-! ## Members that are computed -/

/-- The bytes of members that are computed in their order, if none of them fails. -/
def emit (conv : α → Option (List β)) : List α → Option (List β)
  | [] => some []
  | a :: l => (conv a).bind fun bs => (emit conv l).map fun rest => bs ++ rest

theorem emit_eq_some {conv : α → Option (List β)} {g : α → List β} {l : List α}
    (h : ∀ a ∈ l, conv a = some (g a)) : emit conv l = some (l.flatMap g) := by
  induction l with
  | nil => rfl
  | cons a l ih =>
    rw [emit, h a List.mem_cons_self, ih fun b hb => h b (List.mem_cons_of_mem a hb)]
    rfl

theorem emit_eq_none {conv : α → Option (List β)} {l : List α} {a : α} (ha : a ∈ l)
    (h : conv a = none) : emit conv l = none := by
  induction l with
  | nil => cases ha
  | cons b l ih =>
    rw [emit]
    rcases List.mem_cons.1 ha with rfl | hmem
    · rw [h]
      rfl
    · rw [ih hmem]
      cases conv b <;> rfl

/-- The size of members that are computed. -/
theorem length_emit {conv : α → Option (List β)} {w : α → ℕ}
    (hw : ∀ a bs, conv a = some bs → bs.length = w a) {l : List α} {bs : List β}
    (h : emit conv l = some bs) : bs.length = (l.map w).sum := by
  induction l generalizing bs with
  | nil =>
    cases h
    rfl
  | cons a l ih =>
    obtain ⟨b, hb, h⟩ := Option.bind_eq_some_iff.1 h
    obtain ⟨rest, hrest, rfl⟩ := Option.map_eq_some_iff.1 h
    rw [List.length_append, hw a b hb, ih hrest, List.map_cons, List.sum_cons]

theorem ne_none_of_emit {conv : α → Option (List β)} {l : List α} {bs : List β}
    (h : emit conv l = some bs) {a : α} (ha : a ∈ l) : conv a ≠ none := by
  intro hnone
  rw [emit_eq_none ha hnone] at h
  cases h

/-! ## Padding -/

theorem mod_succ_lt {m a : ℕ} (hm : 0 < m) (h : a % m ≠ 0) :
    (m - (a + 1) % m) % m + 1 = (m - a % m) % m := by
  have hlt := Nat.mod_lt a hm
  have hsucc : (a + 1) % m = (a % m + 1) % m := by rw [Nat.mod_add_mod]
  rw [Nat.mod_eq_of_lt (show m - a % m < m by omega), hsucc]
  by_cases hlast : a % m + 1 = m
  · rw [hlast, Nat.mod_self, Nat.sub_zero, Nat.mod_self]
    omega
  · rw [Nat.mod_eq_of_lt (show a % m + 1 < m by omega),
      Nat.mod_eq_of_lt (show m - (a % m + 1) < m by omega)]
    omega

/-- `while (data.size % m != 0) data += b`. -/
def padMod (m : ℕ) (b : β) (data : List β) : List β :=
  if h : 0 < m ∧ data.length % m ≠ 0 then
    have := mod_succ_lt h.1 h.2
    padMod m b (data ++ [b])
  else data
termination_by (m - data.length % m) % m
decreasing_by
  rw [List.length_append, List.length_singleton]
  omega

/-- `while (data.size < n) data += b`. -/
def padTo (n : ℕ) (b : β) (data : List β) : List β :=
  if data.length < n then padTo n b (data ++ [b]) else data
termination_by n - data.length
decreasing_by
  rw [List.length_append, List.length_singleton]
  omega

theorem padMod_eq {m : ℕ} (hm : 0 < m) (b : β) (data : List β) :
    padMod m b data = data ++ List.replicate ((m - data.length % m) % m) b := by
  induction hn : (m - data.length % m) % m generalizing data with
  | zero =>
    have h : data.length % m = 0 := by
      by_contra h
      have hstep := mod_succ_lt hm h
      omega
    rw [padMod, dif_neg (fun hc => hc.2 h), List.replicate_zero, List.append_nil]
  | succ n ih =>
    have h : data.length % m ≠ 0 := by
      intro h
      rw [h, Nat.sub_zero, Nat.mod_self] at hn
      cases hn
    have hstep := mod_succ_lt hm h
    have hnext : (m - (data ++ [b]).length % m) % m = n := by
      rw [List.length_append, List.length_singleton]
      omega
    rw [padMod, dif_pos ⟨hm, h⟩, ih (data ++ [b]) hnext, List.append_assoc, List.replicate_succ,
      List.singleton_append]

theorem padTo_eq (n : ℕ) (b : β) (data : List β) :
    padTo n b data = data ++ List.replicate (n - data.length) b := by
  induction hn : n - data.length generalizing data with
  | zero => rw [padTo, if_neg (by omega), List.replicate_zero, List.append_nil]
  | succ k ih =>
    have hnext : n - (data ++ [b]).length = k := by
      rw [List.length_append, List.length_singleton]
      omega
    rw [padTo, if_pos (by omega), ih (data ++ [b]) hnext, List.append_assoc, List.replicate_succ,
      List.singleton_append]

end Layout
