import LegoTrain.Lib.Text

/-!
# The configuration file of the app

`ConfigParser.kt` reads an INI file line by line: a section line makes its section the
current one, and every line with an equals sign is a key and a value of the current
section.

* `ConfigParser.read`, `ConfigParser.get` : the parser;
* `IniLine`, `IniText` : what a file is made of, and `assignments` the values that it gives
  to a key;
* `lookup_parse` : what the parser keeps of them;
* `getsValue_iff` : for which assignments that is the value.
-/

namespace App

open Text

/-- `KeyValues`. -/
abbrev KeyValues := List Char → Option (List Char)

/-- `ConfigParser`. -/
structure ConfigParser where
  sections : List Char → Option KeyValues
  currentSection : List Char

namespace ConfigParser

/-- A character that `.` does not match. -/
def lineTerminator (c : Char) : Prop := c ∈ ['\n', '\r', '\u0085', '\u2028', '\u2029']

instance (c : Char) : Decidable (lineTerminator c) := inferInstanceAs (Decidable (_ ∈ _))

/-- `sectionRegex.matchEntire(line)`, for `\[(.+)]`: the group. -/
def matchEntire : List Char → Option (List Char)
  | '[' :: line =>
    if line.getLast? = some ']' ∧ line.dropLast ≠ [] ∧
        line.dropLast.all (fun c => ¬ lineTerminator c) then
      some line.dropLast
    else none
  | _ => none

def parseSectionName (line : List Char) : Option (List Char) :=
  if line ≠ [] ∧ '[' ∈ line ∧ ']' ∈ line then matchEntire line else none

/-- `parseKeyValuePair`: of the parts between equals signs the first two. -/
def parseKeyValuePair (line : List Char) : Option (List Char × List Char) :=
  if line ≠ [] ∧ '=' ∈ line then
    match line.splitOn '=' with
    | key :: value :: _ => some (removeSuffix ' ' key, removePrefix ' ' value)
    | _ => none
  else none

def addSectionName (p : ConfigParser) (sectionName : List Char) : ConfigParser :=
  match p.sections sectionName with
  | none =>
    { p with sections := fun s => if s = sectionName then some fun _ => none else p.sections s }
  | some _ => p

def addKeyValue (p : ConfigParser) (key value : List Char) : ConfigParser :=
  match p.sections p.currentSection with
  | none => p
  | some keyValues =>
    { p with sections := fun s =>
        if s = p.currentSection then some fun k => if k = key then some value else keyValues k
        else p.sections s }

def parseLine (p : ConfigParser) (line : List Char) : ConfigParser :=
  let p := (parseSectionName line).elim p fun sectionName =>
    addSectionName { p with currentSection := sectionName } sectionName
  (parseKeyValuePair line).elim p fun it => addKeyValue p it.1 it.2

/-- The constructor. -/
def new : ConfigParser := ⟨fun _ => none, []⟩

def read (p : ConfigParser) (text : List Char) : ConfigParser := (readLines text).foldl parseLine p

/-- `sections[section]?.get(key)`. -/
def lookup (p : ConfigParser) (sectionName key : List Char) : Option (List Char) :=
  (p.sections sectionName).bind fun keyValues => keyValues key

def get (p : ConfigParser) (sectionName key : List Char) : List Char :=
  (p.lookup sectionName key).getD []

end ConfigParser

/-! ## The files -/

/-- The name of a section. -/
structure SectionName where
  text : List Char
  ne_nil : text ≠ []
  plain : ∀ c ∈ text, c ≠ '[' ∧ c ≠ ']' ∧ ¬ ConfigParser.lineTerminator c

/-- A key: it starts neither a section nor a comment, and has no equals sign in it and no
space around it. -/
structure IniKey where
  text : List Char
  plain : ∀ c ∈ text, c ≠ '=' ∧ ¬ Break c
  starts : ∃ c, text.head? = some c ∧ c ∉ [' ', '[', '#', ';']
  ends : text.getLast? ≠ some ' '

/-- What may stand in a line. -/
structure IniRest where
  text : List Char
  plain : ∀ c ∈ text, ¬ Break c

/-- The mark of a comment. -/
inductive CommentMark
  | hash
  | semicolon
  deriving DecidableEq, Repr

def CommentMark.char : CommentMark → Char
  | .hash => '#'
  | .semicolon => ';'

inductive IniLine
  | header (name : SectionName)
  | blank (spaces : ℕ)
  | comment (spaces : ℕ) (mark : CommentMark) (rest : IniRest)
  /-- `key = value`, with spaces before and behind the key; the rest is the value with the
  spaces around it -/
  | assign (before : ℕ) (key : IniKey) (behind : ℕ) (rest : IniRest)

def spaces (n : ℕ) : List Char := List.replicate n ' '

/-- The text of a line. -/
def IniLine.text : IniLine → List Char
  | .header name => '[' :: name.text ++ [']']
  | .blank n => spaces n
  | .comment n mark rest => spaces n ++ mark.char :: rest.text
  | .assign before key behind rest => spaces before ++ key.text ++ spaces behind ++ '=' :: rest.text

/-- A file: its lines with their ends, and possibly one without. -/
structure IniText where
  eol : Eol
  ended : List IniLine
  last : Option IniLine

namespace IniText

def lines (file : IniText) : List IniLine := file.ended ++ file.last.toList

def text (file : IniText) : List Char :=
  ((file.ended.map IniLine.text).flatMap fun l => l ++ file.eol.chars) ++
    (file.last.map IniLine.text).getD []

end IniText

/-- A value that is given to a key, with the spaces around the key. -/
structure Assignment where
  before : ℕ
  behind : ℕ
  rest : List Char
  deriving DecidableEq, Repr

/-- The values that lines give to a key in any part of a section, when `current` is the
section they start in. -/
def assignments (sectionName : List Char) (key : IniKey) :
    Option (List Char) → List IniLine → List Assignment
  | _, [] => []
  | _, .header name :: ls => assignments sectionName key (some name.text) ls
  | current, .assign before k behind rest :: ls =>
    if current = some sectionName ∧ k.text = key.text then
      ⟨before, behind, rest.text⟩ :: assignments sectionName key current ls
    else assignments sectionName key current ls
  | current, _ :: ls => assignments sectionName key current ls

/-- The value that a file has for a key: of the last assignment, without the spaces around
it. -/
def valueOf (as : List Assignment) : List Char :=
  (as.getLast?.map fun a => trim ' ' a.rest).getD []

/-- `get` gives the value. -/
def GetsValue (file : IniText) (sectionName : List Char) (key : IniKey) : Prop :=
  (ConfigParser.new.read file.text).get sectionName key.text
    = valueOf (assignments sectionName key none file.lines)

/-! ## What the parser takes from a line -/

namespace ConfigParser

variable {p : ConfigParser} {line : List Char}

/-- The pair of a line with an equals sign. -/
theorem parseKeyValuePair_append {part rest : List Char} (h : '=' ∉ part) :
    parseKeyValuePair (part ++ '=' :: rest)
      = some (removeSuffix ' ' part, removePrefix ' ' (rest.takeWhile (· != '='))) := by
  obtain ⟨parts, hparts⟩ := splitOn_head '=' rest
  rw [parseKeyValuePair, if_pos ⟨by simp, by simp⟩, List.splitOn_append_cons_self_of_not_mem h,
    hparts]

/-- The key of a pair is what stands in front of the equals sign, but for a space. -/
theorem key_of_parseKeyValuePair {k value : List Char}
    (h : parseKeyValuePair line = some (k, value)) :
    k = removeSuffix ' ' (line.takeWhile (· != '=')) := by
  obtain ⟨parts, hparts⟩ := splitOn_head '=' line
  unfold parseKeyValuePair at h
  rw [hparts] at h
  split at h
  · cases parts with
    | nil => cases h
    | cons part parts => exact (congrArg Prod.fst (Option.some.inj h)).symm
  · cases h

/-- A line that starts as no key does has no key of a file. -/
theorem ne_key_of_head (h : ∀ c, line.head? = some c → c ∈ [' ', '[', '#', ';'])
    {k value : List Char} (hpair : parseKeyValuePair line = some (k, value)) (key : IniKey) :
    k ≠ key.text := by
  rintro rfl
  obtain ⟨c, hhead, hc⟩ := key.starts
  have hk := key_of_parseKeyValuePair hpair
  have hne : removeSuffix ' ' (line.takeWhile (· != '=')) ≠ [] := by
    intro hnil
    rw [hk, hnil] at hhead
    cases hhead
  have hpart : (line.takeWhile (· != '=')).head? = some c := by
    rw [← head_removeSuffix hne, ← hk, hhead]
  have hline : line.head? = some c := by
    cases line with
    | nil => cases hpart
    | cons d line =>
      rw [List.takeWhile_cons] at hpart
      split at hpart
      · exact hpart
      · cases hpart
  exact hc (h c hline)

theorem parseSectionName_of_head (h : line.head? ≠ some '[') : parseSectionName line = none := by
  unfold parseSectionName
  split
  · unfold matchEntire
    split
    · exact absurd rfl h
    · rfl
  · rfl

theorem parseSectionName_header (name : SectionName) :
    parseSectionName (IniLine.header name).text = some name.text := by
  have hin : (IniLine.header name).text ≠ [] ∧ '[' ∈ (IniLine.header name).text ∧
      ']' ∈ (IniLine.header name).text := by simp [IniLine.text]
  rw [parseSectionName, if_pos hin]
  have hmatch : (name.text ++ [']']).getLast? = some ']' ∧ (name.text ++ [']']).dropLast ≠ [] ∧
      (name.text ++ [']']).dropLast.all (fun c => ¬ lineTerminator c) := by
    rw [List.dropLast_concat, List.all_eq_true]
    exact ⟨by simp, name.ne_nil, fun c hc => decide_eq_true (name.plain c hc).2.2⟩
  simp only [IniLine.text, List.cons_append, matchEntire]
  rw [if_pos hmatch, List.dropLast_concat]

/-! ## What a line changes -/

/-- The parser stands in the section `current`, which it has. -/
structure In (p : ConfigParser) (current : Option (List Char)) : Prop where
  empty : p.sections [] = none
  currentSection : p.currentSection = current.getD []
  isSome : ∀ sectionName, current = some sectionName → (p.sections sectionName).isSome

theorem in_new : In new none := ⟨rfl, rfl, fun _ h => by cases h⟩

variable {current : Option (List Char)}

theorem lookup_addKeyValue (h : In p current) (k value sectionName key : List Char) :
    (addKeyValue p k value).lookup sectionName key
      = if current = some sectionName ∧ key = k then some value else p.lookup sectionName key := by
  cases current with
  | none =>
    have hcur : p.currentSection = [] := h.currentSection
    have hnone : p.sections p.currentSection = none := by rw [hcur, h.empty]
    simp [addKeyValue, hnone]
  | some name =>
    have hcur : p.currentSection = name := h.currentSection
    obtain ⟨keyValues, hkv⟩ := Option.isSome_iff_exists.1 (h.isSome name rfl)
    by_cases hsec : sectionName = name
    · by_cases hkey : key = k
      · simp [addKeyValue, lookup, hcur, hkv, hsec, hkey]
      · simp [addKeyValue, lookup, hcur, hkv, hsec, hkey]
    · simp [addKeyValue, lookup, hcur, hkv, hsec, Ne.symm hsec]

theorem in_addKeyValue (h : In p current) (k value : List Char) :
    In (addKeyValue p k value) current := by
  cases current with
  | none =>
    have hcur : p.currentSection = [] := h.currentSection
    have hnone : p.sections p.currentSection = none := by rw [hcur, h.empty]
    simpa [addKeyValue, hnone] using h
  | some name =>
    have hcur : p.currentSection = name := h.currentSection
    obtain ⟨keyValues, hkv⟩ := Option.isSome_iff_exists.1 (h.isSome name rfl)
    have hne : [] ≠ name := by
      rintro rfl
      rw [h.empty] at hkv
      cases hkv
    refine ⟨?_, ?_, ?_⟩
    · simp [addKeyValue, hcur, hkv, hne, h.empty]
    · simp [addKeyValue, hcur, hkv]
    · rintro _ ⟨⟩
      simp [addKeyValue, hcur, hkv]

/-- A section line changes the section and no value. -/
theorem in_addSectionName (h : In p current) (name : SectionName) :
    In (addSectionName { p with currentSection := name.text } name.text) (some name.text) := by
  have hne : [] ≠ name.text := name.ne_nil.symm
  cases hname : p.sections name.text with
  | none =>
    refine ⟨?_, ?_, ?_⟩
    · simp [addSectionName, hname, hne, h.empty]
    · simp [addSectionName, hname]
    · rintro _ ⟨⟩
      simp [addSectionName, hname]
  | some keyValues =>
    refine ⟨?_, ?_, ?_⟩
    · simp [addSectionName, hname, h.empty]
    · simp [addSectionName, hname]
    · rintro _ ⟨⟩
      simp [addSectionName, hname]

theorem lookup_addSectionName (name sectionName key : List Char) :
    (addSectionName { p with currentSection := name } name).lookup sectionName key
      = p.lookup sectionName key := by
  cases hname : p.sections name with
  | none =>
    by_cases hsec : sectionName = name
    · simp [addSectionName, lookup, hname, hsec]
    · simp [addSectionName, lookup, hname, hsec]
  | some keyValues => simp [addSectionName, lookup, hname]

/-- The parser is in the section behind a line, and the values of all keys are kept. -/
def Keeps (p p' : ConfigParser) (current' : Option (List Char)) : Prop :=
  In p' current' ∧ ∀ (sectionName : List Char) (key : IniKey),
    p'.lookup sectionName key.text = p.lookup sectionName key.text

/-- A pair whose key is not one of a file changes none of its values. -/
theorem keeps_of_pair {pair : Option (List Char × List Char)} (h : In p current)
    (hpair : ∀ k value, pair = some (k, value) → ∀ key : IniKey, k ≠ key.text) :
    Keeps p (pair.elim p fun it => addKeyValue p it.1 it.2) current := by
  cases pair with
  | none => exact ⟨h, fun _ _ => rfl⟩
  | some it =>
    refine ⟨in_addKeyValue h it.1 it.2, fun sectionName key => ?_⟩
    rw [Option.elim_some, lookup_addKeyValue h, if_neg]
    exact fun hc => hpair it.1 it.2 rfl key hc.2.symm

theorem keeps_of_head (h : In p current) (hhead : ∀ c, line.head? = some c → c ∈ [' ', '#', ';']) :
    Keeps p (parseLine p line) current := by
  have hsection : parseSectionName line = none :=
    parseSectionName_of_head fun hc => absurd (hhead _ hc) (by decide)
  have hmore : ∀ c, line.head? = some c → c ∈ [' ', '[', '#', ';'] := by
    intro c hc
    have hin := hhead c hc
    simp only [List.mem_cons] at hin ⊢
    rcases hin with hin | hin | hin | hin
    · exact .inl hin
    · exact .inr (.inr (.inl hin))
    · exact .inr (.inr (.inr (.inl hin)))
    · cases hin
  unfold parseLine
  rw [hsection]
  exact keeps_of_pair h fun k value hpair => ne_key_of_head hmore hpair

theorem head_spaces (n : ℕ) (l : List Char) :
    (spaces n ++ l).head? = if n = 0 then l.head? else some ' ' := by
  cases n with
  | zero => simp [spaces]
  | succ n => simp [spaces, List.replicate_succ]

theorem keeps_blank (h : In p current) (n : ℕ) :
    Keeps p (parseLine p (IniLine.blank n).text) current := by
  refine keeps_of_head h fun c hc => ?_
  have hhead := head_spaces n []
  rw [List.append_nil] at hhead
  rw [IniLine.text, hhead] at hc
  split at hc
  · cases hc
  · cases hc
    decide

theorem keeps_comment (h : In p current) (n : ℕ) (mark : CommentMark) (rest : IniRest) :
    Keeps p (parseLine p (IniLine.comment n mark rest).text) current := by
  refine keeps_of_head h fun c hc => ?_
  rw [IniLine.text, head_spaces] at hc
  split at hc
  · cases hc
    cases mark <;> decide
  · cases hc
    decide

theorem keeps_header (h : In p current) (name : SectionName) :
    Keeps p (parseLine p (IniLine.header name).text) (some name.text) := by
  have hin := in_addSectionName h name
  have hpair : ∀ k value, parseKeyValuePair (IniLine.header name).text = some (k, value) →
      ∀ key : IniKey, k ≠ key.text := by
    intro k value hpair
    refine ne_key_of_head (fun c hc => ?_) hpair
    cases hc
    decide
  unfold parseLine
  rw [parseSectionName_header]
  obtain ⟨hin', hlookup⟩ := keeps_of_pair hin hpair
  exact ⟨hin', fun sectionName key =>
    (hlookup sectionName key).trans (lookup_addSectionName name.text sectionName key.text)⟩

/-! ## What a file leaves -/

end ConfigParser

/-- The parser finds the key of an assignment: nothing stands in front of it, and at most one
space behind. -/
def Assignment.Tight (a : Assignment) : Prop := a.before = 0 ∧ a.behind ≤ 1

instance (a : Assignment) : Decidable a.Tight := inferInstanceAs (Decidable (_ ∧ _))

/-- What the parser takes for the value: up to the next equals sign, without one space. -/
def Assignment.stored (a : Assignment) : List Char :=
  removePrefix ' ' (a.rest.takeWhile (· != '='))

/-- What it keeps of several assignments. -/
def lastStored (as : List Assignment) : Option (List Char) :=
  (as.filter fun a => a.Tight).getLast?.map Assignment.stored

theorem lastStored_cons (a : Assignment) (as : List Assignment) :
    lastStored (a :: as)
      = (lastStored as).or (if a.Tight then some a.stored else none) := by
  unfold lastStored
  by_cases ha : a.Tight
  · rw [List.filter_cons_of_pos (by simpa using ha), if_pos ha, List.getLast?_cons]
    cases (as.filter fun a => a.Tight).getLast? with
    | none => rfl
    | some b => rfl
  · rw [List.filter_cons_of_neg (by simpa using ha), if_neg ha, Option.or_none]

namespace ConfigParser

variable {p : ConfigParser} {current : Option (List Char)}

/-- The key that the parser takes from an assignment. -/
theorem removeSuffix_key (key k : IniKey) (behind : ℕ) :
    removeSuffix ' ' (k.text ++ spaces behind) = key.text ↔ k.text = key.text ∧ behind ≤ 1 := by
  cases behind with
  | zero => simp [spaces, removeSuffix, k.ends]
  | succ n =>
    have hsplit : k.text ++ spaces (n + 1) = (k.text ++ spaces n) ++ [' '] := by
      rw [spaces, List.replicate_succ', ← List.append_assoc]
      rfl
    rw [hsplit, removeSuffix, if_pos (by simp), List.dropLast_concat]
    cases n with
    | zero => simp [spaces]
    | succ n =>
      refine iff_of_false (fun heq => ?_) (fun hc => absurd hc.2 (by omega))
      refine key.ends ?_
      rw [← heq, spaces, List.replicate_succ', ← List.append_assoc]
      simp

/-- What the parser does with an assignment that no space stands in front of. -/
theorem parseLine_assign (p : ConfigParser) (k : IniKey) (behind : ℕ) (rest : IniRest) :
    parseLine p (IniLine.assign 0 k behind rest).text
      = p.addKeyValue (removeSuffix ' ' (k.text ++ spaces behind))
          (removePrefix ' ' (rest.text.takeWhile (· != '='))) := by
  obtain ⟨c, hhead, hstart⟩ := k.starts
  have hline : (IniLine.assign 0 k behind rest).text
      = (k.text ++ spaces behind) ++ '=' :: rest.text := rfl
  have hsection : parseSectionName (IniLine.assign 0 k behind rest).text = none := by
    refine parseSectionName_of_head fun hc => hstart ?_
    rw [hline, List.head?_append, List.head?_append, hhead] at hc
    cases hc
    decide
  have hpart : '=' ∉ k.text ++ spaces behind := by
    rw [List.mem_append, not_or]
    refine ⟨fun hmem => (k.plain _ hmem).1 rfl, fun hmem => ?_⟩
    exact absurd (List.eq_of_mem_replicate hmem) (by decide)
  unfold parseLine
  rw [hsection, hline, parseKeyValuePair_append hpart]
  rfl

/-- The step of an assignment. -/
theorem lookup_assign (h : In p current) (before : ℕ) (k : IniKey) (behind : ℕ) (rest : IniRest) :
    In (parseLine p (IniLine.assign before k behind rest).text) current ∧
      ∀ (sectionName : List Char) (key : IniKey),
        (parseLine p (IniLine.assign before k behind rest).text).lookup sectionName key.text
          = if current = some sectionName ∧ k.text = key.text ∧
              (⟨before, behind, rest.text⟩ : Assignment).Tight then
            some (⟨before, behind, rest.text⟩ : Assignment).stored
          else p.lookup sectionName key.text := by
  cases before with
  | succ n =>
    have hkeeps :
        Keeps p (parseLine p (IniLine.assign (n + 1) k behind rest).text) current := by
      refine keeps_of_head h fun c hc => ?_
      cases hc
      decide
    refine ⟨hkeeps.1, fun sectionName key => ?_⟩
    rw [hkeeps.2, if_neg]
    rintro ⟨-, -, hzero, -⟩
    cases hzero
  | zero =>
    rw [parseLine_assign]
    refine ⟨in_addKeyValue h _ _, fun sectionName key => ?_⟩
    rw [lookup_addKeyValue h]
    have hkey := removeSuffix_key key k behind
    refine if_congr (and_congr_right fun _ => ?_) rfl rfl
    rw [eq_comm, hkey, Assignment.Tight]
    simp

/-- The run over the lines of a file. -/
theorem lookup_foldl (sectionName : List Char) (key : IniKey) {p : ConfigParser}
    {current : Option (List Char)} (h : In p current) (ls : List IniLine) :
    ((ls.map IniLine.text).foldl parseLine p).lookup sectionName key.text
      = (lastStored (assignments sectionName key current ls)).or
          (p.lookup sectionName key.text) := by
  induction ls generalizing p current with
  | nil => simp [assignments, lastStored]
  | cons l ls ih =>
    rw [List.map_cons, List.foldl_cons]
    cases l with
    | header name =>
      obtain ⟨hin, hlookup⟩ := keeps_header h name
      rw [ih hin, hlookup, assignments]
    | blank n =>
      obtain ⟨hin, hlookup⟩ := keeps_blank h n
      rw [ih hin, hlookup, assignments]
      all_goals simp
    | comment n mark rest =>
      obtain ⟨hin, hlookup⟩ := keeps_comment h n mark rest
      rw [ih hin, hlookup, assignments]
      all_goals simp
    | assign before k behind rest =>
      obtain ⟨hin, hlookup⟩ := lookup_assign h before k behind rest
      rw [ih hin, hlookup, assignments]
      by_cases hkey : current = some sectionName ∧ k.text = key.text
      · rw [if_pos hkey, lastStored_cons, Option.or_assoc]
        by_cases htight : (⟨before, behind, rest.text⟩ : Assignment).Tight
        · rw [if_pos ⟨hkey.1, hkey.2, htight⟩, if_pos htight, Option.some_or]
        · rw [if_neg fun hc => htight hc.2.2, if_neg htight, Option.none_or]
      · rw [if_neg hkey, if_neg fun hc => hkey ⟨hc.1, hc.2.1⟩]

end ConfigParser

/-! ## The text of a file -/

theorem break_of_mem_spaces {n : ℕ} {c : Char} (hc : c ∈ spaces n) : ¬ Break c := by
  rw [List.eq_of_mem_replicate hc]
  decide

/-- A line has no break in it. -/
theorem IniLine.plain (l : IniLine) : ∀ c ∈ l.text, ¬ Break c := by
  intro c hc
  cases l with
  | header name =>
    simp only [IniLine.text, List.cons_append, List.mem_cons, List.mem_append,
      List.not_mem_nil, or_false] at hc
    rcases hc with rfl | hc | rfl
    · decide
    · intro hbreak
      refine (name.plain c hc).2.2 ?_
      rcases hbreak with rfl | rfl <;> decide
    · decide
  | blank n => exact break_of_mem_spaces hc
  | comment n mark rest =>
    simp only [IniLine.text, List.mem_append, List.mem_cons] at hc
    rcases hc with hc | rfl | hc
    · exact break_of_mem_spaces hc
    · cases mark <;> decide
    · exact rest.plain c hc
  | assign before key behind rest =>
    simp only [IniLine.text, List.mem_append, List.mem_cons] at hc
    rcases hc with ((hc | hc) | hc) | rfl | hc
    · exact break_of_mem_spaces hc
    · exact (key.plain c hc).2
    · exact break_of_mem_spaces hc
    · decide
    · exact rest.plain c hc

/-- An empty line changes nothing. -/
theorem ConfigParser.parseLine_nil (p : ConfigParser) : p.parseLine [] = p := rfl

/-- What is left of reading a file is what is left of its lines. -/
theorem ConfigParser.read_text (p : ConfigParser) (file : IniText) :
    p.read file.text = (file.lines.map IniLine.text).foldl parseLine p := by
  have hended : ∀ l ∈ file.ended.map IniLine.text, ∀ c ∈ l, ¬ Break c := by
    intro l hl
    obtain ⟨line, -, rfl⟩ := List.mem_map.1 hl
    exact line.plain
  rw [ConfigParser.read, IniText.text, IniText.lines]
  cases file.last with
  | none =>
    rw [readLines_append file.eol hended (by simp)]
    simp
  | some line =>
    rw [readLines_append file.eol hended (by simpa using line.plain)]
    by_cases hnil : line.text = []
    · simp [hnil, ConfigParser.parseLine_nil]
    · simp [hnil]

/-! ## When that is the value -/

/-- Such a value is stored as it should be: it has no equals sign in it, at most one space in
front and none behind. -/
def Tidy (rest : List Char) : Prop := '=' ∉ rest ∧ Trimmed ' ' (removePrefix ' ' rest)

theorem stored_eq_trim_iff (a : Assignment) : a.stored = trim ' ' a.rest ↔ Tidy a.rest := by
  rw [Assignment.stored, Tidy]
  have hall : '=' ∉ a.rest → a.rest.takeWhile (· != '=') = a.rest := by
    intro hno
    refine List.takeWhile_eq_self_iff.2 fun c hc => ?_
    simp only [bne_iff_ne]
    rintro rfl
    exact hno hc
  constructor
  · intro h
    have hno : '=' ∉ a.rest := by
      intro hin
      have htrim := mem_trim_of_ne (c := ' ') hin (by decide)
      rw [← h] at htrim
      have htake := List.mem_takeWhile_imp (mem_of_mem_removePrefix htrim)
      exact absurd htake (by decide)
    rw [hall hno] at h
    refine ⟨hno, trim_eq_self_iff.1 ?_⟩
    rw [trim_removePrefix, h]
  · rintro ⟨hno, htrimmed⟩
    rw [hall hno, ← trim_removePrefix, trim_eq_self_iff.2 htrimmed]

/-- The last assignment to the key is one that the parser finds and stores as it should; or
it does not find it, but has the same value from an earlier one, or the value is empty. -/
def LastReadRight (as : List Assignment) : Prop :=
  ∀ a, as.getLast? = some a →
    if a.Tight then Tidy a.rest else (lastStored as).getD [] = trim ' ' a.rest

theorem lastStored_of_tight {as : List Assignment} {a : Assignment} (hlast : as.getLast? = some a)
    (ha : a.Tight) : lastStored as = some a.stored := by
  obtain ⟨as', rfl⟩ := List.getLast?_eq_some_iff.1 hlast
  rw [lastStored, List.filter_append, List.filter_cons_of_pos (by simpa using ha)]
  simp

/-- The parser gives the value of a key if and only if it reads the last assignment to it
right. -/
theorem getsValue_iff (file : IniText) (sectionName : List Char) (key : IniKey) :
    GetsValue file sectionName key
      ↔ LastReadRight (assignments sectionName key none file.lines) := by
  have hlookup := ConfigParser.lookup_foldl sectionName key ConfigParser.in_new file.lines
  have hnew : ConfigParser.new.lookup sectionName key.text = none := rfl
  rw [hnew, Option.or_none] at hlookup
  rw [GetsValue, ConfigParser.get, ConfigParser.read_text, hlookup, valueOf, LastReadRight]
  generalize assignments sectionName key none file.lines = as
  cases hlast : as.getLast? with
  | none =>
    have hnil : as = [] := by simpa using hlast
    simp [hnil, lastStored]
  | some a =>
    by_cases ha : a.Tight
    · rw [lastStored_of_tight hlast ha]
      simp [ha, stored_eq_trim_iff]
    · simp [ha]

def splitKey : IniKey := ⟨['k'], by simp [Break], ⟨'k', by decide⟩, by decide⟩

/-- The file `[S]`, `k = a=b`. -/
def splitFile : IniText where
  eol := .lf
  ended := [.header ⟨['S'], by simp, by simp [ConfigParser.lineTerminator]⟩,
    .assign 0 splitKey 1 ⟨[' ', 'a', '=', 'b'], by simp [Break]⟩]
  last := none

/-- Of the value `a=b` the parser gives `a`. -/
theorem misreads :
    ¬ ∀ (file : IniText) (sectionName : List Char) (key : IniKey),
      GetsValue file sectionName key := by
  intro h
  have hget := h splitFile ['S'] splitKey
  exact absurd hget (by unfold GetsValue; decide)

end App
