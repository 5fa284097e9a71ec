import Mathlib.Data.List.DropRight
import Mathlib.Data.Nat.Notation

/-!
# Texts as lists of characters

The operations that a line-based parser is made of, and what they undo.

* `readLines`, `readLines_append` : the lines of a text are read back, whichever of the
  three line ends it uses;
* `trim`, `Trimmed` : all the occurrences of a character around a text;
* `removePrefix`, `removeSuffix` : one occurrence in front or behind;
* `splitOn_head` : the first part of a split.
-/

namespace Text

/-! ## Lines -/

/-- A character that no line contains. -/
def Break (c : Char) : Prop := c = '\n' ∨ c = '\r'

instance (c : Char) : Decidable (Break c) := inferInstanceAs (Decidable (_ ∨ _))

/-- The lines of a text, each ended by a line feed, a carriage return, or one behind the
other; what stands behind the last end is a line when it is not empty.  `line` has the
characters of the current line, last first. -/
def readLinesFrom : List Char → List Char → List (List Char)
  | line, [] => if line = [] then [] else [line.reverse]
  | line, '\n' :: cs => line.reverse :: readLinesFrom [] cs
  | line, '\r' :: '\n' :: cs => line.reverse :: readLinesFrom [] cs
  | line, '\r' :: cs => line.reverse :: readLinesFrom [] cs
  | line, c :: cs => readLinesFrom (c :: line) cs

def readLines (text : List Char) : List (List Char) := readLinesFrom [] text

/-- The end of a line. -/
inductive Eol
  | lf
  | cr
  | crlf
  deriving DecidableEq, Repr

def Eol.chars : Eol → List Char
  | .lf => ['\n']
  | .cr => ['\r']
  | .crlf => ['\r', '\n']

theorem readLinesFrom_cons {line cs : List Char} {c : Char} (h : ¬ Break c) :
    readLinesFrom line (c :: cs) = readLinesFrom (c :: line) cs := by
  unfold Break at h
  rw [not_or] at h
  rw [readLinesFrom.eq_5]
  · exact h.1
  · exact fun _ hcr _ => h.2 hcr
  · exact h.2

/-- A line without breaks in it is collected. -/
theorem readLinesFrom_append {line l cs : List Char} (h : ∀ c ∈ l, ¬ Break c) :
    readLinesFrom line (l ++ cs) = readLinesFrom (l.reverse ++ line) cs := by
  induction l generalizing line with
  | nil => rfl
  | cons c l ih =>
    rw [List.cons_append, readLinesFrom_cons (h c List.mem_cons_self),
      ih fun c hc => h c (List.mem_cons_of_mem _ hc)]
    simp

theorem readLinesFrom_eol (eol : Eol) {line cs : List Char}
    (h : eol = .cr → cs.head? ≠ some '\n') :
    readLinesFrom line (eol.chars ++ cs) = line.reverse :: readLinesFrom [] cs := by
  cases eol with
  | lf => simp [Eol.chars, readLinesFrom]
  | crlf => simp [Eol.chars, readLinesFrom]
  | cr =>
    cases cs with
    | nil => simp [Eol.chars, readLinesFrom]
    | cons c cs =>
      have hc : c ≠ '\n' := by simpa using h
      simp only [Eol.chars, List.cons_append, List.nil_append]
      rw [readLinesFrom.eq_4]
      intro cs' hcs'
      exact hc (List.cons.inj hcs').1

/-- With carriage returns for ends no line starts with a line feed. -/
theorem head_lines_ne_lf {ls : List (List Char)} {last : List Char}
    (hls : ∀ l ∈ ls, ∀ c ∈ l, ¬ Break c) (hlast : ∀ c ∈ last, ¬ Break c) :
    ((ls.flatMap fun l => l ++ Eol.cr.chars) ++ last).head? ≠ some '\n' := by
  have hne : ∀ l : List Char, (∀ c ∈ l, ¬ Break c) → l.head? ≠ some '\n' := by
    intro l hl hhead
    exact hl '\n' (List.mem_of_head? hhead) (.inl rfl)
  cases ls with
  | nil => exact hne last hlast
  | cons l ls =>
    cases l with
    | nil => simp [Eol.chars]
    | cons c l => simpa using hne (c :: l) (hls _ List.mem_cons_self)

/-- The lines of a text, and what stands behind them, are read back. -/
theorem readLines_append (eol : Eol) {ls : List (List Char)} {last : List Char}
    (hls : ∀ l ∈ ls, ∀ c ∈ l, ¬ Break c) (hlast : ∀ c ∈ last, ¬ Break c) :
    readLines ((ls.flatMap fun l => l ++ eol.chars) ++ last)
      = ls ++ if last = [] then [] else [last] := by
  induction ls with
  | nil =>
    have hread : readLinesFrom [] (last ++ []) = readLinesFrom (last.reverse ++ []) [] :=
      readLinesFrom_append hlast
    simp only [List.append_nil] at hread
    simp [readLines, hread, readLinesFrom]
  | cons l ls ih =>
    have hls' : ∀ l ∈ ls, ∀ c ∈ l, ¬ Break c := fun l hl => hls l (List.mem_cons_of_mem _ hl)
    rw [List.flatMap_cons, List.append_assoc, List.append_assoc, readLines,
      readLinesFrom_append (hls l List.mem_cons_self), readLinesFrom_eol]
    · rw [List.append_nil, List.reverse_reverse, List.cons_append]
      exact congrArg (l :: ·) (ih hls')
    · rintro rfl
      exact head_lines_ne_lf hls' hlast

/-! ## Trimming -/

section Trim

variable (c : Char) (l : List Char)

def trim : List Char := (l.dropWhile (· == c)).rdropWhile (· == c)

/-- The character stands neither in front nor behind. -/
def Trimmed : Prop := l.head? ≠ some c ∧ l.getLast? ≠ some c

instance : Decidable (Trimmed c l) := inferInstanceAs (Decidable (_ ∧ _))

/-- One occurrence in front is removed. -/
def removePrefix : List Char :=
  match l with
  | [] => []
  | d :: l => if d = c then l else d :: l

/-- One occurrence behind is removed. -/
def removeSuffix : List Char := if l.getLast? = some c then l.dropLast else l

end Trim

variable {c : Char} {l : List Char}

theorem dropWhile_eq_self_iff_head : l.dropWhile (· == c) = l ↔ l.head? ≠ some c := by
  cases l with
  | nil => simp
  | cons d l =>
    by_cases hd : d = c
    · have hlen := List.length_dropWhile_le (p := (· == c)) l
      simp only [hd, List.dropWhile_cons, beq_self_eq_true, if_true, List.head?_cons]
      refine iff_of_false (fun h => ?_) (by simp)
      have := congrArg List.length h
      rw [List.length_cons] at this
      omega
    · simp [hd]

theorem rdropWhile_eq_self_iff_getLast :
    l.rdropWhile (· == c) = l ↔ l.getLast? ≠ some c := by
  rw [List.rdropWhile_eq_self_iff]
  cases l with
  | nil => simp
  | cons d l => simp [List.getLast?_eq_some_getLast]

theorem trim_eq_self_iff : trim c l = l ↔ Trimmed c l := by
  rw [Trimmed, ← dropWhile_eq_self_iff_head, ← rdropWhile_eq_self_iff_getLast]
  constructor
  · intro h
    have hlen : l.length ≤ (l.dropWhile (· == c)).length := by
      have hle := (List.rdropWhile_prefix (· == c) (l.dropWhile (· == c))).length_le
      rwa [show (l.dropWhile (· == c)).rdropWhile (· == c) = l from h] at hle
    have hdrop : l.dropWhile (· == c) = l :=
      (List.dropWhile_suffix (· == c)).eq_of_length_le hlen
    refine ⟨hdrop, ?_⟩
    rw [trim, hdrop] at h
    exact h
  · rintro ⟨hdrop, hrdrop⟩
    rw [trim, hdrop, hrdrop]

theorem trim_removePrefix : trim c (removePrefix c l) = trim c l := by
  cases l with
  | nil => rfl
  | cons d l =>
    rw [removePrefix]
    split
    · rename_i hd
      simp [trim, hd]
    · rfl

theorem mem_dropWhile_of_ne {d : Char} (hd : d ∈ l) (hne : d ≠ c) : d ∈ l.dropWhile (· == c) := by
  induction l with
  | nil => cases hd
  | cons e l ih =>
    rw [List.dropWhile_cons]
    split
    · rename_i he
      rcases List.mem_cons.1 hd with rfl | hd
      · exact absurd (by simpa using he) hne
      · exact ih hd
    · exact hd

/-- Trimming keeps the other characters. -/
theorem mem_trim_of_ne {d : Char} (hd : d ∈ l) (hne : d ≠ c) : d ∈ trim c l := by
  rw [trim, List.rdropWhile, List.mem_reverse]
  exact mem_dropWhile_of_ne (List.mem_reverse.2 (mem_dropWhile_of_ne hd hne)) hne

theorem mem_of_mem_removePrefix {d : Char} (hd : d ∈ removePrefix c l) : d ∈ l := by
  cases l with
  | nil => exact hd
  | cons e l =>
    rw [removePrefix] at hd
    split at hd
    · exact List.mem_cons_of_mem _ hd
    · exact hd

/-- What one removed occurrence behind leaves starts as before. -/
theorem head_removeSuffix (h : removeSuffix c l ≠ []) : (removeSuffix c l).head? = l.head? := by
  unfold removeSuffix at h ⊢
  split
  · rename_i hlast
    rw [if_pos hlast] at h
    cases l with
    | nil => rfl
    | cons d l =>
      cases l with
      | nil => exact absurd rfl h
      | cons e l => rfl
  · rfl

/-! ## Splitting -/

/-- A split ends its first part at the first occurrence. -/
theorem splitOn_head (c : Char) (l : List Char) :
    ∃ parts, l.splitOn c = l.takeWhile (· != c) :: parts := by
  induction l with
  | nil => exact ⟨[], by simp⟩
  | cons d l ih =>
    obtain ⟨parts, hparts⟩ := ih
    rw [List.splitOn_cons_eq_if_modifyHead]
    by_cases hd : d = c
    · exact ⟨l.splitOn c, by simp [hd]⟩
    · exact ⟨parts, by simp [hd, hparts]⟩

end Text
