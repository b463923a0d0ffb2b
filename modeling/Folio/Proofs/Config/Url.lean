import Mathlib.Data.List.Basic
import Folio.Config.Basic
import Folio.Proofs.Text.Blank
import Folio.Text.Split

/-!
# The URL of a connection string

A connection string that carries the scheme of a URL is that URL, and any other one
names the endpoint in front of its first comma.  Either way the URL carries a scheme and
has no blank space around it, so it stands for itself; only a connection string whose
first part is blank or an option has no URL.
-/

namespace Folio

/-! ## Parts of a text -/

namespace Text

theorem head?_splitChars (delimiter : Char) (text : List Char) :
    (splitChars delimiter text).head? = some (text.takeWhile (· ≠ delimiter)) := by
  induction text with
  | nil => rfl
  | cons c rest ih =>
      rw [splitChars]
      by_cases here : c = delimiter
      · rw [if_pos here, List.takeWhile_cons_of_neg (by simp [here])]
        rfl
      · rw [if_neg here, List.takeWhile_cons_of_pos (by simp [here])]
        cases parts : splitChars delimiter rest with
        | nil => exact absurd parts (splitChars_ne_nil delimiter rest)
        | cons first more =>
            rw [parts] at ih
            exact congrArg (fun part => some (c :: part)) (Option.some.inj ih)

/-- What stands behind a text belongs to its first part iff the text has no delimiter. -/
theorem takeWhile_around {delimiter : Char} {front back : List Char} (text : List Char)
    (inFront : delimiter ∉ front) (behind : delimiter ∉ back) :
    (front ++ text ++ back).takeWhile (· ≠ delimiter) =
      front ++ text.takeWhile (· ≠ delimiter) ++ if delimiter ∈ text then [] else back := by
  have other : ∀ part : List Char, delimiter ∉ part →
      ∀ c ∈ part, decide (c ≠ delimiter) = true := by
    intro part free c mem
    exact decide_eq_true fun same => free (same ▸ mem)
  rw [List.append_assoc, List.takeWhile_append_of_pos (other front inFront), List.append_assoc]
  congr 1
  induction text with
  | nil => exact List.takeWhile_eq_self_iff.2 (other back behind)
  | cons c rest ih =>
      rw [List.cons_append]
      by_cases here : c = delimiter
      · rw [List.takeWhile_cons_of_neg (by simp [here]),
          List.takeWhile_cons_of_neg (by simp [here]), if_pos (by simp [here])]
        rfl
      · rw [List.takeWhile_cons_of_pos (by simp [here]),
          List.takeWhile_cons_of_pos (by simp [here]), ih, List.cons_append]
        simp only [List.mem_cons, Ne.symm here, false_or]

end Text

namespace Config

/-- The first of the parts of a text with commas between them. -/
def firstPart (text : String) : String := (Text.split ',' text).head (Text.split_ne_nil ',' text)

def CarriesScheme (text : String) : Prop :=
  ∃ scheme ∈ ["redis://", "rediss://", "redis+unix://"], scheme.toList <+: text.toList

/-- Whether the first part of a text names no endpoint, for it is blank or an option. -/
def LacksEndpoint (text : String) : Prop :=
  (∀ c ∈ (firstPart text).toList, Text.isBlank c = true) ∨ '=' ∈ (firstPart text).toList

theorem isUrl_iff (text : String) : isUrl text.toList = true ↔ CarriesScheme text := by
  simp only [isUrl, schemes, CarriesScheme, List.any_eq_true, List.isPrefixOf_iff_prefix]

theorem toList_firstPart (text : String) :
    (firstPart text).toList = text.toList.takeWhile (· ≠ ',') := by
  have first := Text.head?_splitChars ',' text.toList
  have part : (Text.split ',' text).head? = some (firstPart text) := List.head?_eq_some_head _
  rw [Text.split, List.head?_map, first] at part
  rw [← Option.some.inj part, String.toList_ofList]

/-- The blank space around a text does not matter for its trimmed first part. -/
theorem trim_firstPart_trim (text : String) :
    Text.trim (firstPart (Text.trim text)) = Text.trim (firstPart text) := by
  obtain ⟨front, back, cut, inFront, behind, -⟩ := Text.trimsTo_trim text
  have noComma : ∀ part : List Char, (∀ c ∈ part, Text.isBlank c = true) → ',' ∉ part :=
    fun part blank mem => absurd (blank ',' mem) (by decide)
  rw [← String.toList_inj, Text.toList_trim, Text.toList_trim, toList_firstPart, toList_firstPart,
    cut, Text.takeWhile_around _ (noComma front inFront) (noComma back behind)]
  refine (Text.stripChars_append _ inFront ?_).symm
  split
  · exact List.forall_mem_nil _
  · exact behind

theorem lacksEndpoint_iff (text : String) :
    LacksEndpoint text ↔
      (Text.trim (firstPart text)).toList.isEmpty = true ∨
        '=' ∈ (Text.trim (firstPart text)).toList := by
  rw [LacksEndpoint, Text.toList_trim, List.isEmpty_iff, Text.stripChars_eq_nil_iff,
    Text.mem_stripChars_iff (by decide)]

/-! ## What becomes of a connection string -/

section UrlOf

variable {connection : String}

theorem urlOf_of_carriesScheme (carries : CarriesScheme (Text.trim connection)) :
    urlOf connection = .ok (Text.trim connection) := by
  have isUrl : isUrl (Text.trimChars connection.toList) = true := by
    rw [Text.trimChars, ← Text.toList_trim]
    exact (isUrl_iff _).2 carries
  rw [urlOf, if_pos isUrl, Text.trim]

/-- A connection string without a scheme is read up to its first comma. -/
theorem urlOf_of_not_carriesScheme (none : ¬CarriesScheme (Text.trim connection)) :
    urlOf connection =
      if (Text.trim (firstPart connection)).toList.isEmpty = true ∨
          '=' ∈ (Text.trim (firstPart connection)).toList
      then .error (.noEndpoint (Text.trim connection))
      else .ok ("redis://" ++ Text.trim (firstPart connection)) := by
  have isUrl : ¬isUrl (Text.trimChars connection.toList) = true := by
    rw [Text.trimChars, ← Text.toList_trim, isUrl_iff]
    exact none
  have endpoint : Text.trimChars ((Text.trimChars connection.toList).takeWhile (· ≠ ',')) =
      (Text.trim (firstPart connection)).toList := by
    rw [← trim_firstPart_trim, Text.toList_trim, toList_firstPart, Text.toList_trim]
    rfl
  rw [urlOf, if_neg isUrl]
  dsimp only
  rw [endpoint, String.ofList_toList]
  rfl

theorem urlOf_of_lacksEndpoint (none : ¬CarriesScheme (Text.trim connection))
    (lacks : LacksEndpoint (Text.trim connection)) :
    urlOf connection = .error (.noEndpoint (Text.trim connection)) := by
  rw [lacksEndpoint_iff, trim_firstPart_trim] at lacks
  rw [urlOf_of_not_carriesScheme none, if_pos lacks]

theorem urlOf_of_endpoint (none : ¬CarriesScheme (Text.trim connection))
    (names : ¬LacksEndpoint (Text.trim connection)) :
    urlOf connection = .ok ("redis://" ++ Text.trim (firstPart connection)) := by
  rw [lacksEndpoint_iff, trim_firstPart_trim] at names
  rw [urlOf_of_not_carriesScheme none, if_neg names]

theorem urlOf_eq_error_iff {misuse : Misuse} :
    urlOf connection = .error misuse ↔
      misuse = .noEndpoint (Text.trim connection) ∧ ¬CarriesScheme (Text.trim connection) ∧
        LacksEndpoint (Text.trim connection) := by
  constructor
  · intro refused
    by_cases carries : CarriesScheme (Text.trim connection)
    · rw [urlOf_of_carriesScheme carries] at refused
      cases refused
    · by_cases lacks : LacksEndpoint (Text.trim connection)
      · rw [urlOf_of_lacksEndpoint carries lacks] at refused
        cases refused
        exact ⟨rfl, carries, lacks⟩
      · rw [urlOf_of_endpoint carries lacks] at refused
        cases refused
  · rintro ⟨rfl, none, lacks⟩
    exact urlOf_of_lacksEndpoint none lacks

end UrlOf

/-! ## URLs that stand for themselves -/

/-- Whether a text carries a scheme and has no blank space around it. -/
structure IsNormalUrl (url : String) : Prop where
  carries : CarriesScheme url
  bare : Text.Bare Text.isBlank url.toList

theorem IsNormalUrl.urlOf_eq {url : String} (normal : IsNormalUrl url) : urlOf url = .ok url := by
  have same : Text.trim url = url := by
    rw [← String.toList_inj, Text.toList_trim, normal.bare.stripChars_eq]
  rw [urlOf_of_carriesScheme (same.symm ▸ normal.carries), same]

theorem isNormalUrl_trim {text : String} (carries : CarriesScheme (Text.trim text)) :
    IsNormalUrl (Text.trim text) := by
  refine ⟨carries, ?_⟩
  rw [Text.toList_trim]
  exact Text.bare_stripChars Text.isBlank text.toList

/-- The scheme has no blank space in front, and an endpoint that is not empty has none behind. -/
theorem isNormalUrl_endpoint {endpoint : String} (nonempty : endpoint.toList ≠ [])
    (bare : Text.Bare Text.isBlank endpoint.toList) : IsNormalUrl ("redis://" ++ endpoint) := by
  refine ⟨⟨"redis://", by simp, ?_⟩, ?_, ?_⟩
  · rw [String.toList_append]
    exact List.prefix_append _ _
  · rw [String.toList_append]
    rintro c ⟨⟩
    rfl
  · rw [String.toList_append]
    intro c last
    rw [List.getLast?_append_of_ne_nil _ nonempty] at last
    exact bare.last c last

theorem isNormalUrl_of_urlOf {connection url : String} (named : urlOf connection = .ok url) :
    IsNormalUrl url := by
  by_cases carries : CarriesScheme (Text.trim connection)
  · rw [urlOf_of_carriesScheme carries] at named
    cases named
    exact isNormalUrl_trim carries
  · by_cases lacks : LacksEndpoint (Text.trim connection)
    · rw [urlOf_of_lacksEndpoint carries lacks] at named
      cases named
    · rw [urlOf_of_endpoint carries lacks] at named
      cases named
      rw [lacksEndpoint_iff, trim_firstPart_trim, not_or, List.isEmpty_iff] at lacks
      refine isNormalUrl_endpoint lacks.1 ?_
      rw [Text.toList_trim]
      exact Text.bare_stripChars Text.isBlank _

/--
Making a URL of a connection string is a projection.  The URL carries a scheme, has no blank space
around it and is its own URL; it is the trimmed connection string if that carries a scheme, and else
the trimmed first part behind `redis://`.  A connection string is refused iff it carries no scheme
and its first part is blank or has an equals sign.
-/
theorem urlOf_projects (connection : String) :
    ∃ trimmed endpoint,
      Text.TrimsTo connection trimmed ∧ Text.TrimsTo (firstPart connection) endpoint ∧
      (∀ url, urlOf connection = .ok url →
        CarriesScheme url ∧ Text.Bare Text.isBlank url.toList ∧
        (CarriesScheme trimmed → url = trimmed) ∧
        (¬CarriesScheme trimmed → url = "redis://" ++ endpoint) ∧
        urlOf url = .ok url) ∧
      ∀ misuse, urlOf connection = .error misuse ↔
        misuse = .noEndpoint trimmed ∧ ¬CarriesScheme trimmed ∧ LacksEndpoint trimmed := by
  refine ⟨Text.trim connection, Text.trim (firstPart connection), Text.trimsTo_trim _,
    Text.trimsTo_trim _, fun url named => ?_, fun misuse => urlOf_eq_error_iff⟩
  have normal := isNormalUrl_of_urlOf named
  refine ⟨normal.carries, normal.bare, fun carries => ?_, fun none => ?_, normal.urlOf_eq⟩
  · rw [urlOf_of_carriesScheme carries] at named
    exact (Except.ok.inj named).symm
  · rw [urlOf_of_not_carriesScheme none] at named
    split at named
    · cases named
    · exact (Except.ok.inj named).symm

/-- Blank space around the string and its first part, and an option behind the comma. -/
example : urlOf " \u3000cache:6379\t, ssl=true\n" = .ok "redis://cache:6379" := rfl

end Config

end Folio
