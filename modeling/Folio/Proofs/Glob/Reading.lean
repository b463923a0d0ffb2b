import Folio.Glob.Compile
import Folio.Proofs.Glob.Star

/-!
# Reading globs item by item

Outside groups, a glob is read item by item: what an item is written as becomes its
pieces, whatever was read before it, and a star becomes a run.  So a glob that has one
star for several compiles to the pieces of its items with runs for its stars.
-/

namespace Folio

variable {τ : Type}

def IsGlobSpecial (c : Char) : Prop :=
  c = '\\' ∨ c = '?' ∨ c = '[' ∨ c = ']' ∨ c = '*' ∨ c = '\x7b' ∨ c = '\x7d'

instance (c : Char) : Decidable (IsGlobSpecial c) :=
  inferInstanceAs (Decidable (c = '\\' ∨ c = '?' ∨ c = '[' ∨ c = ']' ∨ c = '*' ∨ c = '\x7b' ∨ c = '\x7d'))

/-- What a pattern is written as, given what its items are. -/
def starText (text : τ → List Char) : Option τ → List Char
  | none => ['*']
  | some t => text t

namespace Glob

/-- The pieces of a pattern, given those of its items. -/
def starPieces (pieces : τ → List Piece) : Option τ → List Piece
  | none => [.run]
  | some t => pieces t

/-- What has been built if a star that was read last is one run. -/
def Reading.settled (reading : Reading) : Build :=
  match reading.mode with
  | .star _ => reading.build.push .run
  | _ => reading.build

/-- Whether some pieces have been read, outside groups and with nothing under way but a star. -/
structure Reading.Holds (reading : Reading) (pieces : List Piece) : Prop where
  simple : reading.mode = .plain ∨ ∃ before, reading.mode = .star before
  noGroup : reading.settled.groups = []
  pieces : reading.settled.pieces.reverse = pieces

/-- Whether a text is read as some pieces, wherever nothing is under way but a star. -/
def ReadsAs (text : List Char) (pieces : List Piece) : Prop :=
  ∀ (reading : Reading) (before : List Piece), reading.Holds before →
    ∃ next, text.foldlM Reading.step reading = .ok next ∧ next.mode = .plain ∧
      next.Holds (before ++ pieces)

theorem pieces_literal (build : Build) (c : Char) :
    (build.literal c).pieces.reverse =
      build.pieces.reverse ++ (String.utf8EncodeChar c).map Piece.literal := by
  have pushed : ∀ (bytes : Bytes) (build : Build),
      (bytes.foldl (fun build b => build.push (.literal b)) build).pieces.reverse =
        build.pieces.reverse ++ bytes.map Piece.literal := by
    intro bytes
    induction bytes with
    | nil => exact fun build => (List.append_nil _).symm
    | cons b rest ih =>
        intro build
        rw [List.foldl_cons, ih, Build.push, List.reverse_cons, List.append_assoc]
        rfl
  exact pushed _ build

theorem groups_literal (build : Build) (c : Char) : (build.literal c).groups = build.groups := by
  have pushed : ∀ (bytes : Bytes) (build : Build),
      (bytes.foldl (fun build b => build.push (.literal b)) build).groups = build.groups := by
    intro bytes
    induction bytes with
    | nil => exact fun build => rfl
    | cons b rest ih => exact fun build => ih (build.push (.literal b))
  exact pushed _ build

/-! ## One item -/

section Item

variable {reading : Reading} {before : List Piece}

/-- Behind a star or nothing special, another character than a star is read as it stands. -/
theorem step_of_ne_star (holds : reading.Holds before) {c : Char} (noStar : c ≠ '*') :
    ∃ previous, reading.step c =
      (readPlain reading.settled previous c).map fun (mode, build) => ⟨mode, some c, build⟩ := by
  obtain ⟨mode, last, build⟩ := reading
  rcases holds.simple with plain | ⟨before, star⟩
  · change mode = .plain at plain
    subst plain
    exact ⟨last, rfl⟩
  · change mode = .star before at star
    subst star
    refine ⟨some '*', ?_⟩
    rw [Reading.step]
    dsimp only
    rw [if_neg noStar]
    rfl

/-- One piece more has been read. -/
theorem Reading.Holds.push (holds : reading.Holds before) (last : Option Char) (piece : Piece) :
    Reading.Holds ⟨.plain, last, reading.settled.push piece⟩ (before ++ [piece]) := by
  have built : (reading.settled.push piece).pieces.reverse = before ++ [piece] := by
    rw [Build.push, List.reverse_cons, holds.pieces]
  exact ⟨Or.inl rfl, holds.noGroup, built⟩

/-- The bytes of one character more have been read. -/
theorem Reading.Holds.literal (holds : reading.Holds before) (last : Option Char) (c : Char) :
    Reading.Holds ⟨.plain, last, reading.settled.literal c⟩
      (before ++ (String.utf8EncodeChar c).map .literal) := by
  have built : (reading.settled.literal c).pieces.reverse =
      before ++ (String.utf8EncodeChar c).map .literal := by
    rw [pieces_literal, holds.pieces]
  have noGroup : (reading.settled.literal c).groups = [] := by
    rw [groups_literal, holds.noGroup]
  exact ⟨Or.inl rfl, noGroup, built⟩

end Item

/-- Outside groups, what is not special in a glob stands for itself, and so does a bracket at its end. -/
theorem readPlain_literal {build : Build} (noGroup : build.groups = []) (previous : Option Char)
    {c : Char} (plain : ¬IsGlobSpecial c ∨ c = ']') :
    readPlain build previous c = .ok (.plain, build.literal c) := by
  have outside : build.nextAlternative? = none := by
    rw [Build.nextAlternative?, noGroup]
  rcases plain with plain | rfl
  · simp only [IsGlobSpecial, not_or] at plain
    obtain ⟨noBackslash, noMark, noOpen, -, noStar, noBrace, noEnd⟩ := plain
    rw [readPlain, if_neg noBackslash, if_neg noOpen, if_neg noMark, if_neg noBrace, if_neg noEnd,
      if_neg noStar, outside]
    split <;> rfl
  · rfl

/-- An escaped character is read as its bytes. -/
theorem readsAs_escaped (c : Char) :
    ReadsAs ['\\', c] ((String.utf8EncodeChar c).map .literal) := by
  intro reading before holds
  obtain ⟨previous, escape⟩ := step_of_ne_star holds (c := '\\') (by decide)
  refine ⟨_, ?_, rfl, holds.literal (some c) c⟩
  rw [List.foldlM_cons, escape]
  rfl

/-- A character without a meaning is read as its bytes. -/
theorem readsAs_literal {c : Char} (plain : ¬IsGlobSpecial c ∨ c = ']') :
    ReadsAs [c] ((String.utf8EncodeChar c).map .literal) := by
  intro reading before holds
  have noStar : c ≠ '*' := by
    rintro rfl
    rcases plain with plain | no
    · exact plain (by decide)
    · cases no
  obtain ⟨previous, step⟩ := step_of_ne_star holds noStar
  refine ⟨_, ?_, rfl, holds.literal (some c) c⟩
  rw [List.foldlM_cons, step, readPlain_literal holds.noGroup _ plain]
  rfl

/-- A question mark is read as any byte. -/
theorem readsAs_any : ReadsAs ['?'] [.any] := by
  intro reading before holds
  obtain ⟨previous, step⟩ := step_of_ne_star holds (c := '?') (by decide)
  refine ⟨_, ?_, rfl, holds.push (some '?') .any⟩
  rw [List.foldlM_cons, step]
  rfl

/-! ## Many items -/

section Items

variable {text : τ → List Char} {pieces : τ → List Piece} {reading : Reading} {before : List Piece}

/-- A star that is not behind a star is read as a run. -/
theorem read_star (holds : reading.Holds before) (plain : reading.mode = .plain) :
    ∃ next, (starText text none).foldlM Reading.step reading = .ok next ∧
      next.Holds (before ++ [.run]) := by
  obtain ⟨mode, last, build⟩ := reading
  change mode = .plain at plain
  subst plain
  refine ⟨⟨.star last, some '*', build⟩, rfl, Or.inr ⟨last, rfl⟩, holds.noGroup, ?_⟩
  have built : build.pieces.reverse = before := holds.pieces
  rw [Reading.settled, Build.push, List.reverse_cons, built]

/-- A pattern with one star for several is read as the pieces of its items and runs. -/
theorem read_collapse (afterStar : Bool) (pattern : List (Option τ))
    (reads : ∀ t, some t ∈ pattern → ReadsAs (text t) (pieces t)) (holds : reading.Holds before)
    (plain : afterStar = false → reading.mode = .plain) :
    ∃ next,
      ((collapse afterStar pattern).flatMap (starText text)).foldlM Reading.step reading = .ok next ∧
        next.Holds (before ++ (collapse afterStar pattern).flatMap (starPieces pieces)) := by
  induction pattern generalizing afterStar reading before with
  | nil =>
      refine ⟨reading, rfl, ?_⟩
      rw [collapse, List.flatMap_nil, List.append_nil]
      exact holds
  | cons token rest ih =>
      have readsRest : ∀ t, some t ∈ rest → ReadsAs (text t) (pieces t) := fun t mem =>
        reads t (List.mem_cons_of_mem token mem)
      cases token with
      | some t =>
          obtain ⟨next, read, mode, held⟩ := reads t List.mem_cons_self reading before holds
          obtain ⟨last, more, heldLast⟩ := ih false readsRest held fun _ => mode
          refine ⟨last, ?_, ?_⟩
          · rw [collapse, List.flatMap_cons, List.foldlM_append, starText, read]
            exact more
          · rw [collapse, List.flatMap_cons, ← List.append_assoc]
            exact heldLast
      | none =>
          cases afterStar with
          | true => exact ih true readsRest holds fun no => absurd no (by decide)
          | false =>
              obtain ⟨next, read, held⟩ := read_star holds (plain rfl)
              obtain ⟨last, more, heldLast⟩ := ih true readsRest held fun no => absurd no (by decide)
              refine ⟨last, ?_, ?_⟩
              · rw [collapse, if_neg Bool.false_ne_true, List.flatMap_cons, List.foldlM_append, read]
                exact more
              · rw [collapse, if_neg Bool.false_ne_true, List.flatMap_cons, ← List.append_assoc]
                exact heldLast

theorem finish_of_holds (holds : reading.Holds before) : reading.finish = .ok before := by
  obtain ⟨mode, last, build⟩ := reading
  have finish : (Reading.settled ⟨mode, last, build⟩).finish = .ok before := by
    rw [Build.finish, holds.noGroup, holds.pieces]
    rfl
  rcases holds.simple with plain | ⟨before, star⟩
  · change mode = .plain at plain
    subst plain
    exact finish
  · change mode = .star before at star
    subst star
    exact finish

/-- A pattern with one star for several compiles to the pieces of its items and runs. -/
theorem compile_collapse (pattern : List (Option τ))
    (reads : ∀ t, some t ∈ pattern → ReadsAs (text t) (pieces t)) :
    compile ((collapse false pattern).flatMap (starText text)) =
      .ok ((collapse false pattern).flatMap (starPieces pieces)) := by
  have start : Reading.Holds ⟨.plain, none, .start⟩ [] := ⟨Or.inl rfl, rfl, rfl⟩
  obtain ⟨next, read, holds⟩ := read_collapse false pattern reads start fun _ => rfl
  rw [compile, read]
  exact finish_of_holds holds

end Items

end Glob

end Folio
