import EvidenceSynthesis.Evidence.Call
import EvidenceSynthesis.Proofs.Text.Pieces
import Mathlib

/-!
# Calls as segments and a tail

Whatever its text is, a call is a list of segments, joined by dots, and a tail that is empty or
begins with the first opening parenthesis; and it is so in one way only
(`Parts.existsUnique_chars`).  Each extractor reads one side of it: the names of the method and of
the classes come from the segments, whatever stands between the parentheses, and the names of the
arguments come from the tail.

So the tokens are told by the parts (`extract_parts`).  The last segment is the name of a method,
unless it is empty or repeats the segment in front of it, and the last two capitalized ones of the
others are names of classes.
-/

namespace EvidenceSynthesis.Call

/-- A segment of a qualifier: a text without dots and opening parentheses, which may be empty. -/
@[ext]
structure Segment where
  chars : List Char
  no_dot : '.' ∉ chars := by simp
  no_parenthesis : '(' ∉ chars := by simp
  deriving DecidableEq

/-- The parts of a call. -/
@[ext]
structure Parts where
  /-- The segments in front of the last one. -/
  owners : List Segment
  /-- The last segment. -/
  method : Segment
  /-- What stands behind the first opening parenthesis, if there is one. -/
  behind : Option (List Char)

/-- The text of a segment. -/
def Segment.text (segment : Segment) : String :=
  String.ofList segment.chars

/-- What a call ends in: nothing, or an opening parenthesis and what stands behind it. -/
def tailOf : Option (List Char) → List Char
  | none => []
  | some behind => '(' :: behind

namespace Parts

/-- All segments. -/
def segments (parts : Parts) : List Segment :=
  parts.owners ++ [parts.method]

/-- The segments in front of the last one that begin with an uppercase character. -/
def capitalized (parts : Parts) : List Segment :=
  parts.owners.filter fun segment => isCapitalized segment.chars

/-- The tail, which is empty or begins with the first opening parenthesis. -/
def tail (parts : Parts) : List Char :=
  tailOf parts.behind

/-- The characters of a call with these parts. -/
def chars (parts : Parts) : List Char :=
  ['.'].intercalate (parts.segments.map Segment.chars) ++ parts.tail

/-- The text of a call with these parts. -/
def text (parts : Parts) : String :=
  String.ofList parts.chars

end Parts

theorem Segment.chars_injective : Function.Injective Segment.chars :=
  fun _ _ => Segment.ext

theorem tailOf_injective : Function.Injective tailOf
  | none, none, _ => rfl
  | some _, some _, h => congrArg some (List.cons.inj h).2

/-- A tail begins with a parenthesis. -/
theorem eq_of_mem_head?_tailOf {c : Char} : ∀ {behind : Option (List Char)},
    c ∈ (tailOf behind).head? → c = '('
  | some _, h => (Option.some.inj h).symm

/-! ### Taking a call apart -/

/-- The arguments stand between the first opening parenthesis and the next parenthesis. -/
theorem arguments?_eq_some_iff {call arguments : List Char} :
    arguments? call = some arguments ↔
      ∃ head rest, call = head ++ '(' :: (arguments ++ rest) ∧ '(' ∉ head ∧
        (∀ c ∈ arguments, c ≠ '(' ∧ c ≠ ')') ∧ ∀ c ∈ rest.head?, c = '(' ∨ c = ')' := by
  have hcut (behind rest : List Char) :
      behind.takeWhile (fun c => c != '(' && c != ')') = arguments ∧
          behind.dropWhile (fun c => c != '(' && c != ')') = rest ↔
        behind = arguments ++ rest ∧ (∀ c ∈ arguments, c ≠ '(' ∧ c ≠ ')') ∧
          ∀ c ∈ rest.head?, c = '(' ∨ c = ')' := by
    rw [Text.cut_iff]
    simp [or_iff_not_imp_left]
  constructor
  · intro h
    cases hbehind : call.dropWhile (· != '(') with
    | nil => simp [arguments?, hbehind] at h
    | cons paren behind =>
      obtain ⟨hcall, hhead, hparen⟩ := Text.cut_at_iff.1 ⟨rfl, hbehind⟩
      obtain rfl := hparen paren rfl
      simp only [arguments?, hbehind, Option.some.injEq] at h
      obtain ⟨hsplit, harguments, hrest⟩ := (hcut behind _).1 ⟨h, rfl⟩
      refine ⟨call.takeWhile (· != '('), _, ?_, hhead, harguments, hrest⟩
      rw [← hsplit]
      exact hcall
  · rintro ⟨head, rest, rfl, hhead, harguments, hrest⟩
    have hstart : ∀ c ∈ ('(' :: (arguments ++ rest)).head?, c = '(' := by simp
    have hbehind := Text.cut_at_iff.2 ⟨rfl, hhead, hstart⟩
    have hread := (hcut (arguments ++ rest) rest).2 ⟨rfl, harguments, hrest⟩
    simp only [arguments?, hbehind.2, hread.1]

namespace Parts

variable (parts : Parts)

/-- The qualifier ends where the tail begins. -/
theorem cut_chars :
    parts.chars.takeWhile (· != '(') = ['.'].intercalate (parts.segments.map Segment.chars) ∧
      parts.chars.dropWhile (· != '(') = parts.tail := by
  refine Text.cut_at_iff.2 ⟨rfl, fun hmem => ?_, fun c hc => eq_of_mem_head?_tailOf hc⟩
  rcases Text.mem_of_mem_intercalate hmem with hdot | ⟨piece, hpiece, hin⟩
  · exact absurd hdot (by decide)
  · obtain ⟨segment, -, rfl⟩ := List.mem_map.1 hpiece
    exact segment.no_parenthesis hin

/-- The segments of a call are those it is put together from. -/
theorem segments_chars : Call.segments parts.chars = parts.segments.map Segment.chars := by
  rw [Call.segments, qualifier, parts.cut_chars.1]
  refine List.splitOn_intercalate '.' ?_ (by simp [segments])
  intro piece hpiece
  obtain ⟨segment, -, rfl⟩ := List.mem_map.1 hpiece
  exact segment.no_dot

/-- The parts are told by the characters. -/
theorem chars_injective : Function.Injective chars := by
  intro parts other h
  have hsegments : parts.segments = other.segments := by
    refine List.map_injective_iff.2 Segment.chars_injective ?_
    rw [← segments_chars, ← segments_chars, h]
  have htail : parts.tail = other.tail := by
    rw [← parts.cut_chars.2, ← other.cut_chars.2, h]
  obtain ⟨howners, hmethod⟩ := List.append_inj' hsegments rfl
  exact Parts.ext howners (List.singleton_inj.1 hmethod) (tailOf_injective htail)

/-- Every text is that of a call with some parts. -/
theorem exists_chars (call : List Char) : ∃ parts : Parts, parts.chars = call := by
  have hplain : ∀ piece ∈ Call.segments call, '.' ∉ piece ∧ '(' ∉ piece := by
    intro piece hpiece
    obtain ⟨hdot, before, after, hqualifier, -⟩ := Text.mem_splitOn_iff.1 hpiece
    refine ⟨hdot, fun hmem => ?_⟩
    have hin : '(' ∈ qualifier call := by
      rw [hqualifier]
      simp [hmem]
    exact (Text.cut_at_iff.1 ⟨rfl, rfl⟩).2.1 hin
  obtain ⟨pieces, hpieces⟩ : ∃ pieces : List Segment,
      pieces.map Segment.chars = Call.segments call :=
    ⟨(Call.segments call).pmap (fun chars h => ⟨chars, h.1, h.2⟩) hplain, by simp [List.map_pmap]⟩
  have hqualifier : ['.'].intercalate (pieces.map Segment.chars) = call.takeWhile (· != '(') := by
    rw [hpieces]
    exact List.intercalate_splitOn '.'
  obtain ⟨behind, htail⟩ : ∃ behind, (call.dropWhile (· != '(')) = tailOf behind := by
    cases hbehind : call.dropWhile (· != '(') with
    | nil => exact ⟨none, rfl⟩
    | cons c behind =>
      obtain rfl := (Text.cut_at_iff.1 ⟨rfl, hbehind⟩).2.2 c rfl
      exact ⟨some behind, rfl⟩
  rcases List.eq_nil_or_concat pieces with rfl | ⟨owners, method, rfl⟩
  · exact absurd hpieces.symm (List.splitOn_ne_nil _ _)
  · refine ⟨⟨owners, method, behind⟩, ?_⟩
    rw [chars, segments, tail, ← List.concat_eq_append, hqualifier, ← htail]
    exact List.takeWhile_append_dropWhile

/-- Every text is that of a call, in one way only. -/
theorem existsUnique_chars (call : List Char) : ∃! parts : Parts, parts.chars = call := by
  obtain ⟨parts, rfl⟩ := exists_chars call
  exact ⟨parts, rfl, fun _ h => chars_injective h⟩

/-! ### What is read of the parts -/

/-- The last segment is the name of a method unless it is empty or repeats the one in front of
it. -/
theorem methodNames_chars :
    methodNames parts.chars =
      if parts.method.chars = [] ∨ parts.owners.getLast? = some parts.method then []
      else [parts.method.chars] := by
  rw [methodNames, segments_chars, segments, List.map_append, List.reverse_append]
  rcases List.eq_nil_or_concat parts.owners with howners | ⟨front, owner, howners⟩
  · simp [howners]
  · have hsame : owner.chars = parts.method.chars ↔ owner = parts.method :=
      Segment.chars_injective.eq_iff
    simp [howners, hsame]

/-- The last two of the other segments that are capitalized are the names of classes. -/
theorem classNames_chars :
    classNames parts.chars = lastTwo (parts.capitalized.map Segment.chars) := by
  rw [classNames, segments_chars, segments, List.map_append, List.map_singleton,
    List.dropLast_concat, List.filter_map]
  rfl

/-- The names of the arguments are read of the tail. -/
theorem argumentNames_chars : argumentNames parts.chars = argumentNames parts.tail := by
  have htail : parts.tail.dropWhile (· != '(') = parts.tail := by
    cases hbehind : parts.behind <;> simp [tail, tailOf, hbehind]
  have harguments : arguments? parts.chars = arguments? parts.tail := by
    simp only [arguments?, parts.cut_chars.2, htail]
  simp only [argumentNames, harguments]

end Parts

/-- The last two items of a list are its end of that length. -/
theorem lastTwo_suffix {α : Type} (items : List α) :
    lastTwo items <:+ items ∧ (lastTwo items).length = min 2 items.length := by
  refine ⟨List.drop_suffix _ _, ?_⟩
  rw [lastTwo, List.length_drop]
  omega

namespace Parts

variable (parts : Parts)

/-- The API call of a signature is its method, unless it is empty or a constructor. -/
theorem extract_apiCalls :
    Kind.apiCalls.extract parts.text =
      if parts.method.chars = [] ∨ parts.owners.getLast? = some parts.method then []
      else [parts.method.text] := by
  rw [Kind.extract, text, String.toList_ofList, methodNames_chars]
  split <;> rfl

/-- The types of a signature are the last two capitalized segments in front of its method. -/
theorem extract_types :
    Kind.types.extract parts.text = lastTwo (parts.capitalized.map Segment.text) := by
  rw [Kind.extract, text, String.toList_ofList, classNames_chars, lastTwo, List.map_drop,
    List.map_map, List.length_map, lastTwo, List.length_map]
  rfl

/-- The context of a signature depends on its tail alone. -/
theorem extract_context :
    Kind.context.extract parts.text = Kind.context.extract (String.ofList parts.tail) := by
  rw [Kind.extract, Kind.extract, text, String.toList_ofList, String.toList_ofList,
    argumentNames_chars]

end Parts

/-- Every call is taken apart in one way.  Its last segment is the only name of a method unless it
is empty or, as in a constructor, repeats the segment in front of it; the names of classes are the
end, of at most two, of the capitalized ones among the other segments; neither depends on what
stands behind the parenthesis, and the names of the arguments depend on nothing else. -/
theorem extract_parts :
    (∀ call : String, ∃! parts : Parts, parts.text = call) ∧
    (∀ parts : Parts,
      Kind.apiCalls.extract parts.text =
        (if parts.method.chars = [] ∨ parts.owners.getLast? = some parts.method then []
          else [parts.method.text]) ∧
      Kind.types.extract parts.text <:+ parts.capitalized.map Segment.text ∧
      (Kind.types.extract parts.text).length = min 2 parts.capitalized.length ∧
      (∀ behind, Kind.apiCalls.extract { parts with behind }.text =
          Kind.apiCalls.extract parts.text ∧
        Kind.types.extract { parts with behind }.text = Kind.types.extract parts.text) ∧
      (∀ owners method, Kind.context.extract { parts with owners, method }.text =
        Kind.context.extract parts.text)) ∧
    ∀ call, (Kind.apiCalls.extract call).length ≤ 1 ∧ (Kind.types.extract call).length ≤ 2 := by
  have hexists (call : String) : ∃! parts : Parts, parts.text = call := by
    obtain ⟨parts, hparts, hunique⟩ := Parts.existsUnique_chars call.toList
    have htext : parts.text = call := by
      rw [Parts.text, hparts, String.ofList_toList]
    refine ⟨parts, htext, fun other (hother : other.text = call) => hunique other ?_⟩
    rw [← hother, Parts.text, String.toList_ofList]
  refine ⟨hexists, fun parts => ?_, fun call => ?_⟩
  · have htypes := lastTwo_suffix (parts.capitalized.map Segment.text)
    rw [← parts.extract_types, List.length_map] at htypes
    refine ⟨parts.extract_apiCalls, htypes.1, htypes.2, fun behind => ⟨?_, ?_⟩,
      fun owners method => ?_⟩
    · rw [Parts.extract_apiCalls, Parts.extract_apiCalls]
    · rw [Parts.extract_types, Parts.extract_types]
      rfl
    · rw [Parts.extract_context, Parts.extract_context parts]
      rfl
  · obtain ⟨parts, rfl, -⟩ := hexists call
    refine ⟨?_, ?_⟩
    · rw [parts.extract_apiCalls]
      split <;> simp
    · rw [parts.extract_types, (lastTwo_suffix _).2]
      exact Nat.min_le_left 2 _

/-- The tokens of a constructor and of a method of a nested class. -/
example :
    Kind.apiCalls.extract "java.io.File.File(java.lang.String)" = [] ∧
      Kind.types.extract "java.util.Map.Entry.getKey()" = ["Map", "Entry"] := by
  decide

end EvidenceSynthesis.Call
