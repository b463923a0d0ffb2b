/-!
# Cutting a text at a delimiter

Cutting and joining are inverse to each other: every text is the join of its
parts, and parts without the delimiter come back from their join.
-/

namespace Folio.Text

def consFirst (c : Char) : List (List Char) → List (List Char)
  | [] => [[c]]
  | part :: parts => (c :: part) :: parts

/-- The parts of a text between the delimiters; there is always at least one. -/
def splitChars (delimiter : Char) : List Char → List (List Char)
  | [] => [[]]
  | c :: rest =>
      if c = delimiter then [] :: splitChars delimiter rest
      else consFirst c (splitChars delimiter rest)

def joinChars (delimiter : Char) : List (List Char) → List Char
  | [] => []
  | part :: [] => part
  | part :: next :: parts => part ++ delimiter :: joinChars delimiter (next :: parts)

def split (delimiter : Char) (text : String) : List String :=
  (splitChars delimiter text.toList).map String.ofList

def join (delimiter : Char) (parts : List String) : String :=
  String.ofList (joinChars delimiter (parts.map String.toList))

/-- The lines of a message; a carriage return at the end of a line does not belong to it. -/
def lines (message : String) : List String :=
  (splitChars '\n' message.toList).map fun line =>
    String.ofList (if line.getLast? = some '\r' then line.dropLast else line)

theorem consFirst_ne_nil (c : Char) (parts : List (List Char)) : consFirst c parts ≠ [] := by
  cases parts <;> simp [consFirst]

theorem splitChars_ne_nil (delimiter : Char) (text : List Char) :
    splitChars delimiter text ≠ [] := by
  cases text with
  | nil => simp [splitChars]
  | cons c rest =>
      rw [splitChars]
      split
      · simp
      · exact consFirst_ne_nil c _

theorem split_ne_nil (delimiter : Char) (text : String) : split delimiter text ≠ [] := by
  simp [split, splitChars_ne_nil]

theorem not_mem_of_mem_splitChars {delimiter : Char} {text part : List Char}
    (h : part ∈ splitChars delimiter text) : delimiter ∉ part := by
  induction text generalizing part with
  | nil => simp_all [splitChars]
  | cons c rest ih =>
      rw [splitChars] at h
      split at h
      · rcases List.mem_cons.1 h with rfl | h
        · simp
        · exact ih h
      · rename_i ne
        cases parts : splitChars delimiter rest with
        | nil => exact absurd parts (splitChars_ne_nil delimiter rest)
        | cons first more =>
            rw [parts, consFirst] at h
            rcases List.mem_cons.1 h with rfl | h
            · have : delimiter ∉ first := ih (by simp [parts])
              simp_all [eq_comm]
            · exact ih (by simp [parts, h])

theorem joinChars_cons_cons (delimiter c : Char) (part : List Char) (parts : List (List Char)) :
    joinChars delimiter ((c :: part) :: parts) = c :: joinChars delimiter (part :: parts) := by
  cases parts <;> rfl

theorem joinChars_splitChars (delimiter : Char) (text : List Char) :
    joinChars delimiter (splitChars delimiter text) = text := by
  induction text with
  | nil => rfl
  | cons c rest ih =>
      rw [splitChars]
      cases parts : splitChars delimiter rest with
      | nil => exact absurd parts (splitChars_ne_nil delimiter rest)
      | cons first more =>
          rw [parts] at ih
          split
          · rename_i eq
            rw [joinChars, ih, eq, List.nil_append]
          · rw [consFirst, joinChars_cons_cons, ih]

theorem splitChars_append {delimiter : Char} {part : List Char} (h : delimiter ∉ part)
    (rest : List Char) :
    splitChars delimiter (part ++ delimiter :: rest) = part :: splitChars delimiter rest := by
  induction part with
  | nil => simp [splitChars]
  | cons c more ih =>
      have ne : c ≠ delimiter := fun eq => h (by simp [eq])
      have tail : delimiter ∉ more := fun mem => h (List.mem_cons_of_mem c mem)
      rw [List.cons_append, splitChars, if_neg ne, ih tail, consFirst]

theorem splitChars_eq_singleton {delimiter : Char} {part : List Char} (h : delimiter ∉ part) :
    splitChars delimiter part = [part] := by
  induction part with
  | nil => rfl
  | cons c more ih =>
      have ne : c ≠ delimiter := fun eq => h (by simp [eq])
      have tail : delimiter ∉ more := fun mem => h (List.mem_cons_of_mem c mem)
      rw [splitChars, if_neg ne, ih tail, consFirst]

theorem splitChars_joinChars {delimiter : Char} {parts : List (List Char)} (nonempty : parts ≠ [])
    (h : ∀ part ∈ parts, delimiter ∉ part) :
    splitChars delimiter (joinChars delimiter parts) = parts := by
  induction parts with
  | nil => exact absurd rfl nonempty
  | cons part more ih =>
      have here : delimiter ∉ part := h part List.mem_cons_self
      cases more with
      | nil => exact splitChars_eq_singleton here
      | cons next others =>
          rw [joinChars, splitChars_append here,
            ih (List.cons_ne_nil next others) fun p mem => h p (List.mem_cons_of_mem part mem)]

theorem join_split (delimiter : Char) (text : String) :
    join delimiter (split delimiter text) = text := by
  simp [join, split, joinChars_splitChars]

theorem split_join {delimiter : Char} {parts : List String} (nonempty : parts ≠ [])
    (h : ∀ part ∈ parts, delimiter ∉ part.toList) :
    split delimiter (join delimiter parts) = parts := by
  have chars : ∀ part ∈ parts.map String.toList, delimiter ∉ part := by
    intro part mem
    obtain ⟨text, of, rfl⟩ := List.mem_map.1 mem
    exact h text of
  simp [join, split, splitChars_joinChars (by simpa using nonempty) chars]

theorem not_mem_of_mem_split {delimiter : Char} {text part : String}
    (h : part ∈ split delimiter text) : delimiter ∉ part.toList := by
  obtain ⟨chars, mem, rfl⟩ := List.mem_map.1 h
  simpa using not_mem_of_mem_splitChars mem

end Folio.Text
