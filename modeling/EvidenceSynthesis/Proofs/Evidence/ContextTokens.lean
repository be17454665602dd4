import EvidenceSynthesis.Proofs.Evidence.Signatures
import EvidenceSynthesis.Proofs.Text.Pieces
import Mathlib

/-!
# The tokens of the context

A token of the context is the name of an argument as it stands in a call, without its array markers.
`NamePlace` says where such a name stands: the arguments in front of it and the package end at a
separator, and the type arguments, the later arguments and the rest of the call start with one.  So
a name has no separators, and neither has a token (`mem_argumentNames_iff`).

The array markers are removed in one pass from left to right.  Where markers are enclosed in a pair
of brackets, that pair is a marker only once they are gone, and it is left
(`infix_withoutBrackets_iff`).  This is the only way in which a marker can be left in a token
(`Call.extract_context_clean_iff`).
-/

namespace EvidenceSynthesis.Call

/-! ### Markers that are left -/

/-- Somewhere in a text, array markers are enclosed in a pair of brackets. -/
def HasNestedMarkers (text : List Char) : Prop :=
  ∃ n, '[' :: (brackets (n + 1) ++ [']']) <:+: text

/-- What is in front of a character other than a closing bracket is by itself what it is in front of
it. -/
theorem withoutBrackets_append_cons {c : Char} (hc : c ≠ ']') (word rest : List Char) :
    withoutBrackets (word ++ c :: rest) = withoutBrackets word ++ withoutBrackets (c :: rest) := by
  fun_induction withoutBrackets word with
  | case1 word ih => rw [List.cons_append, List.cons_append, withoutBrackets, ih]
  | case2 first word hpair ih =>
    rw [List.cons_append, withoutBrackets, ih, List.cons_append]
    -- a pair would have to be closed by the first character behind the text
    intro others hfirst hword
    rcases word with _ | ⟨second, word⟩
    · exact hc (List.cons.inj hword).1
    · obtain ⟨rfl, -⟩ := List.cons.inj hword
      exact hpair word hfirst rfl
  | case3 => rfl

/-- What is left begins with the first character behind some markers. -/
theorem exists_brackets_of_withoutBrackets {text word : List Char} {c : Char}
    (h : withoutBrackets text = c :: word) : ∃ n rest, text = brackets n ++ c :: rest := by
  fun_induction withoutBrackets text with
  | case1 text ih =>
    obtain ⟨n, rest, rfl⟩ := ih h
    exact ⟨n + 1, rest, rfl⟩
  | case2 first text =>
    obtain ⟨rfl, -⟩ := List.cons.inj h
    exact ⟨0, text, rfl⟩
  | case3 => cases h

/-- A marker is left exactly if markers were enclosed in a pair of brackets. -/
theorem infix_withoutBrackets_iff (text : List Char) :
    ['[', ']'] <:+: withoutBrackets text ↔ HasNestedMarkers text := by
  constructor
  · intro h
    fun_induction withoutBrackets text with
    | case1 text ih =>
      obtain ⟨n, hn⟩ := ih h
      exact ⟨n, List.infix_cons (List.infix_cons hn)⟩
    | case2 c text hpair ih =>
      rcases List.infix_cons_iff.1 h with hprefix | htail
      · obtain ⟨rfl, hrest⟩ := List.cons_prefix_cons.1 hprefix
        obtain ⟨word, hword⟩ := hrest
        obtain ⟨n, rest, rfl⟩ := exists_brackets_of_withoutBrackets hword.symm
        cases n with
        | zero => exact absurd rfl (hpair rest rfl)
        | succ n => exact ⟨n, [], rest, by simp⟩
      · obtain ⟨n, hn⟩ := ih htail
        exact ⟨n, List.infix_cons hn⟩
    | case3 => exact absurd (List.eq_nil_of_infix_nil h) (by simp)
  · rintro ⟨n, before, after, rfl⟩
    have hleft : withoutBrackets ('[' :: (brackets (n + 1) ++ ']' :: after)) =
        '[' :: ']' :: withoutBrackets after := by
      rw [withoutBrackets, withoutBrackets_brackets, withoutBrackets]
      · simp
      · simp [brackets]
    have htext : before ++ '[' :: (brackets (n + 1) ++ [']']) ++ after =
        before ++ '[' :: (brackets (n + 1) ++ ']' :: after) := by simp
    rw [htext, withoutBrackets_append_cons (by decide), hleft]
    exact ⟨withoutBrackets before, withoutBrackets after, by simp⟩

/-! ### Where names stand -/

/-- The characters at which the name of an argument ends. -/
def nameEnds : List Char := ['.', ',', '(', ')', '<']

/-- A place in a call at which the name of an argument stands. -/
structure NamePlace where
  /-- What stands in front of the first opening parenthesis. -/
  head : List Char
  /-- The arguments in front of this one. -/
  earlier : List Char
  /-- The package of the argument. -/
  package : List Char
  /-- The name, with array markers. -/
  name : List Char
  /-- What is cut off from the name. -/
  cut : List Char
  /-- The arguments behind this one. -/
  later : List Char
  /-- What stands behind the arguments. -/
  rest : List Char
  head_plain : '(' ∉ head
  arguments_plain : ∀ c ∈ earlier ++ (package ++ name ++ cut) ++ later, c ≠ '(' ∧ c ≠ ')'
  argument_plain : ',' ∉ package ++ name ++ cut
  earlier_ends : ∀ c ∈ earlier.getLast?, c = ','
  package_ends : ∀ c ∈ package.getLast?, c = '.'
  name_plain : '.' ∉ name ∧ '<' ∉ name
  cut_plain : '.' ∉ cut
  cut_starts : ∀ c ∈ cut.head?, c = '<'
  later_starts : ∀ c ∈ later.head?, c = ','
  rest_starts : ∀ c ∈ rest.head?, c = '(' ∨ c = ')'

namespace NamePlace

variable (place : NamePlace)

/-- What stands between the parentheses. -/
def arguments : List Char :=
  place.earlier ++ (place.package ++ place.name ++ place.cut) ++ place.later

/-- The call. -/
def call : List Char :=
  place.head ++ '(' :: (place.arguments ++ place.rest)

/-- A name ends at each of the characters of `nameEnds`. -/
theorem not_mem_name {c : Char} (h : c ∈ nameEnds) : c ∉ place.name := by
  intro hc
  have harguments := place.arguments_plain c (by simp [hc])
  have hcomma : ',' ∉ place.name := fun hmem => place.argument_plain (by simp [hmem])
  simp only [nameEnds, List.mem_cons, List.not_mem_nil, or_false] at h
  rcases h with rfl | rfl | rfl | rfl | rfl
  · exact place.name_plain.1 hc
  · exact hcomma hc
  · exact harguments.1 rfl
  · exact harguments.2 rfl
  · exact place.name_plain.2 hc

end NamePlace

/-! ### The names that are read -/

/-- Every argument has a name behind its package; each of them may be empty. -/
theorem exists_name (argument : List Char) :
    ∃ package name cut, argument = package ++ name ++ cut ∧
      (∀ c ∈ package.getLast?, c = '.') ∧ ('.' ∉ name ∧ '<' ∉ name) ∧ '.' ∉ cut ∧
      ∀ c ∈ cut.head?, c = '<' := by
  obtain ⟨package, last, rfl, hlast, hpackage⟩ := Text.exists_last_piece '.' argument
  obtain ⟨name, cut, rfl, hname, hcut⟩ : ∃ name cut, last = name ++ cut ∧ '<' ∉ name ∧
      ∀ c ∈ cut.head?, c = '<' := ⟨_, _, Text.cut_at_iff.1 ⟨rfl, rfl⟩⟩
  rw [List.mem_append, not_or] at hlast
  exact ⟨package, name, cut, by rw [List.append_assoc], hpackage, ⟨hlast.1, hname⟩, hlast.2, hcut⟩

/-- The simple name of an argument is its name without array markers. -/
theorem simpleName_of_parts {package name cut : List Char}
    (hpackage : ∀ c ∈ package.getLast?, c = '.') (hname : '.' ∉ name ∧ '<' ∉ name)
    (hcut : '.' ∉ cut) (hstart : ∀ c ∈ cut.head?, c = '<') :
    simpleName (package ++ name ++ cut) = withoutBrackets name := by
  have hplain : simpleName (name ++ cut) = withoutBrackets name := by
    rw [simpleName_of_not_mem (by simp [hname.1, hcut]),
      (Text.cut_at_iff.2 ⟨rfl, hname.2, hstart⟩).1]
  rw [List.append_assoc]
  rcases List.eq_nil_or_concat package with rfl | ⟨front, c, rfl⟩
  · exact hplain
  · obtain rfl := hpackage c (by simp)
    rw [List.concat_append, simpleName_append_dot, hplain]

/-- The names that are read of a call are those that stand in it, without array markers, as far as
something is left of them. -/
theorem mem_argumentNames_iff {call name : List Char} :
    name ∈ argumentNames call ↔
      name ≠ [] ∧ ∃ place : NamePlace, place.call = call ∧ withoutBrackets place.name = name := by
  constructor
  · intro h
    cases harguments : arguments? call with
    | none => simp [argumentNames, harguments] at h
    | some arguments =>
      simp only [argumentNames, harguments, List.mem_filter, List.mem_map] at h
      obtain ⟨⟨argument, hargument, rfl⟩, hne⟩ := h
      obtain ⟨head, rest, rfl, hhead, hplain, hrest⟩ := arguments?_eq_some_iff.1 harguments
      obtain ⟨hcomma, earlier, later, rfl, hearlier, hlater⟩ := Text.mem_splitOn_iff.1 hargument
      obtain ⟨package, name, cut, rfl, hpackage, hname, hcut, hstart⟩ := exists_name argument
      let place : NamePlace :=
        ⟨head, earlier, package, name, cut, later, rest, hhead, hplain, hcomma, hearlier, hpackage,
          hname, hcut, hstart, hlater, hrest⟩
      exact ⟨by simpa using hne, place, rfl, (simpleName_of_parts hpackage hname hcut hstart).symm⟩
  · rintro ⟨hne, place, rfl, rfl⟩
    have harguments : arguments? place.call = some place.arguments :=
      arguments?_eq_some_iff.2 ⟨place.head, place.rest, rfl, place.head_plain,
        place.arguments_plain, place.rest_starts⟩
    have hargument : place.package ++ place.name ++ place.cut ∈ place.arguments.splitOn ',' :=
      Text.mem_splitOn_iff.2 ⟨place.argument_plain, place.earlier, place.later, rfl,
        place.earlier_ends, place.later_starts⟩
    have hread := simpleName_of_parts place.package_ends place.name_plain place.cut_plain
      place.cut_starts
    simp only [argumentNames, harguments, List.mem_filter, List.mem_map]
    exact ⟨⟨_, hargument, hread⟩, by simpa using hne⟩

/-- Removing array markers brings in nothing. -/
theorem mem_of_mem_withoutBrackets {text : List Char} {c : Char} (h : c ∈ withoutBrackets text) :
    c ∈ text := by
  fun_induction withoutBrackets text with
  | case1 text ih => exact List.mem_cons_of_mem _ (List.mem_cons_of_mem _ (ih h))
  | case2 first text hpair ih =>
    rcases List.mem_cons.1 h with rfl | htail
    · exact List.mem_cons_self
    · exact List.mem_cons_of_mem _ (ih htail)
  | case3 => exact h

/-! ### Clean tokens -/

/-- The context tokens of a call are the names of its arguments. -/
theorem mem_extract_context_iff {call token : String} :
    token ∈ Kind.context.extract call ↔ token.toList ∈ argumentNames call.toList := by
  rw [Kind.extract, List.mem_map]
  constructor
  · rintro ⟨name, hname, rfl⟩
    rwa [String.toList_ofList]
  · intro h
    exact ⟨token.toList, h, String.ofList_toList⟩

/-- No array marker is left of a type in a well-formed signature. -/
theorem Signature.not_mem_of_mem_extract_context (signature : Signature) {token : String}
    (h : token ∈ Kind.context.extract signature.text) {c : Char} (hc : c = '[' ∨ c = ']') :
    c ∉ token.toList := by
  have hread := mem_extract_context_iff.1 h
  rw [argumentNames_text] at hread
  obtain ⟨type, -, htype⟩ := List.mem_flatMap.1 hread
  obtain ⟨identifier, n, hname⟩ := ArgumentType.exists_of_mem_namesRead type htype
  rw [hname]
  rcases hc with rfl | rfl
  · simp [identifier.not_mem (c := '[') rfl]
  · simp [identifier.not_mem (c := ']') rfl]

/-- For every call, no token of the context is empty or has a character at which names end; and no
array marker is left in them exactly if in no name of an argument markers are enclosed in a pair of
brackets.  In the tokens of a well-formed signature no bracket is left at all. -/
theorem extract_context_clean_iff (call : String) :
    (∀ token ∈ Kind.context.extract call,
      token ≠ "" ∧ ∀ c ∈ nameEnds, c ∉ token.toList) ∧
    ((∀ token ∈ Kind.context.extract call, ¬ ['[', ']'] <:+: token.toList) ↔
      ∀ place : NamePlace, place.call = call.toList → ¬ HasNestedMarkers place.name) ∧
    ∀ signature : Signature, signature.text = call →
      ∀ token ∈ Kind.context.extract call, '[' ∉ token.toList ∧ ']' ∉ token.toList := by
  refine ⟨fun token htoken => ?_, ⟨fun hclean place hcall hnested => ?_,
    fun hplain token htoken hmarker => ?_⟩, ?_⟩
  · obtain ⟨hne, place, -, hname⟩ := mem_argumentNames_iff.1 (mem_extract_context_iff.1 htoken)
    refine ⟨fun h => hne (by rw [h]; rfl), fun c hc hmem => place.not_mem_name hc ?_⟩
    rw [← hname] at hmem
    exact mem_of_mem_withoutBrackets hmem
  · have hmarker := (infix_withoutBrackets_iff place.name).2 hnested
    have hne : withoutBrackets place.name ≠ [] := fun h => by simp [h] at hmarker
    have htoken := mem_argumentNames_iff.2 ⟨hne, place, hcall, rfl⟩
    refine hclean (String.ofList (withoutBrackets place.name)) ?_ ?_
    · rwa [mem_extract_context_iff, String.toList_ofList]
    · rwa [String.toList_ofList]
  · obtain ⟨-, place, hcall, hname⟩ := mem_argumentNames_iff.1 (mem_extract_context_iff.1 htoken)
    rw [← hname] at hmarker
    exact hplain place hcall ((infix_withoutBrackets_iff place.name).1 hmarker)
  · rintro signature rfl token htoken
    exact ⟨signature.not_mem_of_mem_extract_context htoken (Or.inl rfl),
      signature.not_mem_of_mem_extract_context htoken (Or.inr rfl)⟩

/-- A marker within brackets leaves a marker. -/
theorem extract_context_nested :
    ¬ ∀ call token, token ∈ Kind.context.extract call → ¬ ['[', ']'] <:+: token.toList := by
  intro h
  have hread : Kind.context.extract "m([[]])" = ["[]"] := by decide
  refine h "m([[]])" "[]" ?_ (List.infix_refl _)
  rw [hread]
  exact List.mem_singleton_self _

end EvidenceSynthesis.Call
