import EvidenceSynthesis.Proofs.Model.Numbering
import EvidenceSynthesis.Proofs.Search.Ties
import Mathlib

/-!
# The order of a vocabulary that is built from data

A vocabulary that is built from data ranks the tokens of the data: a token that occurs more often
comes first, and of two that occur equally often the one that occurs first
(`Vocabulary.Outranks`).  The sort makes the first comparison only.  That it does not turn round
tokens with the same frequency (`pairwise_mergeSort_of_nodup`), and that it is given the tokens in
the order in which they first occur (`pairwise_idxOf_eraseDups`), makes the second one.

The frequencies are counted in one pass, with a table that is asked for the count of each token and
told the next one; the order of the tokens is noted beside it.  In which order a table keeps its
entries can therefore not be seen: whatever answers like a table leads to the same vocabulary, and
to the same numbers of its tokens (`TokenTable.ordered_eq`, `TokenTable.get?_numbered`).
-/

namespace EvidenceSynthesis

/-! ### First occurrences and stable sorts -/

/-- A token that is appended is a new one unless it occurs already. -/
theorem eraseDups_append_singleton (tokens : List String) (token : String) :
    (tokens ++ [token]).eraseDups =
      if token ∈ tokens then tokens.eraseDups else tokens.eraseDups ++ [token] := by
  rw [List.eraseDups_append, List.removeAll, List.filter_singleton]
  by_cases hmem : token ∈ tokens
  · simp [hmem]
  · simp [hmem, List.eraseDups_cons]

/-- Without its repetitions, a list is in the order of the first occurrences. -/
theorem pairwise_idxOf_eraseDups (tokens : List String) :
    tokens.eraseDups.Pairwise fun a b => tokens.idxOf a < tokens.idxOf b := by
  induction tokens using List.reverseRecOn with
  | nil => exact List.Pairwise.nil
  | append_singleton tokens token ih =>
    have hkept : tokens.eraseDups.Pairwise fun a b =>
        (tokens ++ [token]).idxOf a < (tokens ++ [token]).idxOf b := by
      refine ih.imp_of_mem fun {a b} ha hb hlt => ?_
      rw [List.mem_eraseDups] at ha hb
      rw [List.idxOf_append_of_mem ha, List.idxOf_append_of_mem hb]
      exact hlt
    rw [eraseDups_append_singleton]
    split
    · exact hkept
    · rename_i hnew
      refine List.pairwise_append.2 ⟨hkept, List.pairwise_singleton _ _, fun a ha b hb => ?_⟩
      rw [List.mem_eraseDups] at ha
      rw [List.mem_singleton.1 hb, List.idxOf_append_of_mem ha, List.idxOf_append, if_neg hnew]
      exact Nat.lt_add_left _ (List.idxOf_lt_length_of_mem ha)

/-- A sort does not turn round what it takes for equal: of a list without repetition, such items
stay in the order in which they stood. -/
theorem pairwise_mergeSort_of_nodup {α : Type} (le : α → α → Bool)
    (htrans : ∀ a b c, le a b = true → le b c = true → le a c = true)
    (htotal : ∀ a b, (le a b || le b a) = true) {R : α → α → Prop} {items : List α}
    (hnodup : items.Nodup) (h : items.Pairwise R) :
    (items.mergeSort le).Pairwise fun a b => le a b = true ∧ (le b a = true → R a b) := by
  have hsorted : (items.mergeSort le).Pairwise fun a b => le a b = true :=
    List.pairwise_mergeSort htrans htotal items
  have hsortedNodup : (items.mergeSort le).Nodup :=
    (List.mergeSort_perm items le).nodup_iff.2 hnodup
  rw [List.pairwise_iff_forall_sublist]
  intro a b hpair
  refine ⟨List.pairwise_iff_forall_sublist.1 hsorted hpair, fun hback => ?_⟩
  have hmem : ∀ c ∈ [a, b], c ∈ items := fun c hc =>
    (List.mergeSort_perm items le).mem_iff.1 (hpair.subset hc)
  have hne : a ≠ b := by
    have hpairNodup := hsortedNodup.sublist hpair
    simpa using hpairNodup
  have hstood : [a, b].Sublist items := by
    apply (Pool.sublist_or_sublist_of_ne (hmem a (by simp)) (hmem b (by simp)) hne).resolve_right
    intro hturned
    -- the sort would have kept this order, which is not the one of the sorted list
    have hkept : [b, a].Sublist (items.mergeSort le) :=
      List.pair_sublist_mergeSort htrans htotal hback hturned
    exact not_pair_sublist_of_nodup hsortedNodup hpair hkept
  exact List.pairwise_iff_forall_sublist.1 h hstood

namespace Vocabulary

variable {data : List (List String)} {tokens more : List String} {a b token : String}

/-! ### The ranking -/

/-- A token occurs more often than another one, or equally often and first. -/
def Outranks (tokens : List String) (a b : String) : Prop :=
  tokens.count b < tokens.count a ∨
    tokens.count a = tokens.count b ∧ tokens.idxOf a < tokens.idxOf b

theorem Outranks.asymm (h : Outranks tokens a b) : ¬ Outranks tokens b a := by
  unfold Outranks at h ⊢
  omega

theorem Outranks.ne (h : Outranks tokens a b) : a ≠ b := by
  rintro rfl
  exact h.asymm h

/-- Of two tokens one outranks the other. -/
theorem outranks_or_outranks (ha : a ∈ tokens) (hne : a ≠ b) :
    Outranks tokens a b ∨ Outranks tokens b a := by
  have hplaces : tokens.idxOf a ≠ tokens.idxOf b := fun h => hne ((List.idxOf_inj ha).1 h)
  unfold Outranks
  omega

/-- Tokens that are appended add to the frequencies, and first occurrences stay what they are. -/
theorem outranks_append_iff (ha : a ∈ tokens) (hb : b ∈ tokens) :
    Outranks (tokens ++ more) a b ↔
      tokens.count b + more.count b < tokens.count a + more.count a ∨
        tokens.count a + more.count a = tokens.count b + more.count b ∧
          tokens.idxOf a < tokens.idxOf b := by
  rw [Outranks, List.count_append, List.count_append, List.idxOf_append_of_mem ha,
    List.idxOf_append_of_mem hb]

/-! ### The order of the tokens -/

/-- The tokens are sorted by their frequencies. -/
theorem tokens_ofData (data : List (List String)) :
    (ofData data).tokens =
      data.flatten.eraseDups.mergeSort fun a b =>
        decide (data.flatten.count b ≤ data.flatten.count a) := by
  have hpairs := List.map_mergeSort
    (r := fun a b => decide (data.flatten.count b ≤ data.flatten.count a))
    (s := fun a b : String × Nat => decide (b.2 ≤ a.2))
    (f := fun token => (token, data.flatten.count token)) (l := data.flatten.eraseDups)
    fun _ _ _ _ => rfl
  rw [ofData, frequencies, ← hpairs, List.map_map]
  exact List.map_id _

/-- A vocabulary has the tokens of its data. -/
theorem mem_tokens_ofData_flatten : token ∈ (ofData data).tokens ↔ token ∈ data.flatten := by
  rw [mem_tokens_ofData, List.mem_flatten]

/-- Each token outranks those that come after it. -/
theorem pairwise_outranks (data : List (List String)) :
    (ofData data).tokens.Pairwise (Outranks data.flatten) := by
  have hsorted := pairwise_mergeSort_of_nodup
    (fun a b => decide (data.flatten.count b ≤ data.flatten.count a))
    (by simp only [decide_eq_true_eq]; omega)
    (by simp only [Bool.or_eq_true, decide_eq_true_eq]; omega)
    (nodup_eraseDups data.flatten) (pairwise_idxOf_eraseDups data.flatten)
  rw [tokens_ofData]
  refine hsorted.imp fun {a b} hpair => ?_
  simp only [decide_eq_true_eq] at hpair
  obtain ⟨hle, hfirst⟩ := hpair
  rcases hle.lt_or_eq with hlt | heq
  · exact Or.inl hlt
  · exact Or.inr ⟨heq.symm, hfirst heq.ge⟩

theorem nodup_tokens_ofData (data : List (List String)) : (ofData data).tokens.Nodup :=
  (pairwise_outranks data).imp Outranks.ne

/-- Listing and look-up are the inverse of each other. -/
theorem index?_ofData_eq_some_iff {place : Nat} :
    (ofData data).index? token = some place ↔ (ofData data).tokens[place]? = some token :=
  ⟨getElem?_of_index?, (isNumbering_iff.2 (nodup_tokens_ofData data)).number place token⟩

/-- A token has a smaller number than another one. -/
def Precedes (vocabulary : Vocabulary) (a b : String) : Prop :=
  ∃ i j, vocabulary.index? a = some i ∧ vocabulary.index? b = some j ∧ i < j

/-- The tokens of data are numbered by their rank. -/
theorem precedes_ofData_iff :
    (ofData data).Precedes a b ↔
      a ∈ data.flatten ∧ b ∈ data.flatten ∧ Outranks data.flatten a b := by
  -- the number of a token is smaller than that of another one that it outranks
  have houtranks {a b : String} {i j : Nat} (hi : (ofData data).index? a = some i)
      (hj : (ofData data).index? b = some j) (hlt : i < j) : Outranks data.flatten a b := by
    obtain ⟨hilt, rfl⟩ := List.getElem?_eq_some_iff.1 (getElem?_of_index? hi)
    obtain ⟨hjlt, rfl⟩ := List.getElem?_eq_some_iff.1 (getElem?_of_index? hj)
    exact List.pairwise_iff_getElem.1 (pairwise_outranks data) i j hilt hjlt hlt
  have hnumber {a : String} : a ∈ data.flatten ↔ ∃ i, (ofData data).index? a = some i := by
    rw [← mem_tokens_ofData_flatten, ← isSome_index?_iff, Option.isSome_iff_exists]
  constructor
  · rintro ⟨i, j, hi, hj, hlt⟩
    exact ⟨hnumber.2 ⟨i, hi⟩, hnumber.2 ⟨j, hj⟩, houtranks hi hj hlt⟩
  · rintro ⟨ha, hb, hrank⟩
    obtain ⟨i, hi⟩ := hnumber.1 ha
    obtain ⟨j, hj⟩ := hnumber.1 hb
    refine ⟨i, j, hi, hj, ?_⟩
    rcases Nat.lt_trichotomy i j with hlt | rfl | hgt
    · exact hlt
    · exact absurd (index?_injective hi hj) hrank.ne
    · exact absurd (houtranks hj hi hgt) hrank.asymm

/-- Of two tokens of the data one precedes the other. -/
theorem precedes_or_precedes (ha : a ∈ data.flatten) (hb : b ∈ data.flatten) (hne : a ≠ b) :
    (ofData data).Precedes a b ∨ (ofData data).Precedes b a :=
  (outranks_or_outranks ha hne).imp (fun hrank => precedes_ofData_iff.2 ⟨ha, hb, hrank⟩)
    fun hrank => precedes_ofData_iff.2 ⟨hb, ha, hrank⟩

/-! ### Data that is added -/

/-- Tokens that are known do not change the tokens of the vocabulary. -/
theorem perm_tokens_append (hknown : ∀ token ∈ more, token ∈ (ofData data).tokens) :
    (ofData (data ++ [more])).tokens.Perm (ofData data).tokens := by
  refine (List.perm_ext_iff_of_nodup (nodup_tokens_ofData _) (nodup_tokens_ofData _)).2
    fun token => ?_
  rw [mem_tokens_ofData_flatten, List.flatten_append, List.mem_append, List.flatten_singleton,
    ← mem_tokens_ofData_flatten, or_iff_left_iff_imp]
  exact hknown token

/-- How tokens are ranked after tokens have been added that are known. -/
theorem precedes_append_iff (hknown : ∀ token ∈ more, token ∈ (ofData data).tokens) :
    (ofData (data ++ [more])).Precedes a b ↔
      a ∈ data.flatten ∧ b ∈ data.flatten ∧
        (data.flatten.count b + more.count b < data.flatten.count a + more.count a ∨
          data.flatten.count a + more.count a = data.flatten.count b + more.count b ∧
            data.flatten.idxOf a < data.flatten.idxOf b) := by
  have hmem {token : String} : token ∈ (data ++ [more]).flatten ↔ token ∈ data.flatten := by
    rw [← mem_tokens_ofData_flatten, (perm_tokens_append hknown).mem_iff,
      mem_tokens_ofData_flatten]
  rw [precedes_ofData_iff, hmem, hmem]
  refine and_congr_right fun ha => and_congr_right fun hb => ?_
  rw [List.flatten_append, List.flatten_singleton, outranks_append_iff ha hb]

/-- Tokens that gain equally much are not turned round. -/
theorem precedes_append_of_count_eq (hknown : ∀ token ∈ more, token ∈ (ofData data).tokens)
    (hcount : more.count a = more.count b) :
    (ofData (data ++ [more])).Precedes a b ↔ (ofData data).Precedes a b := by
  rw [precedes_append_iff hknown, precedes_ofData_iff, Outranks, hcount, Nat.add_lt_add_iff_right,
    Nat.add_right_cancel_iff]

/-- A token passes another one only by gaining more. -/
theorem count_lt_of_precedes_append (hknown : ∀ token ∈ more, token ∈ (ofData data).tokens)
    (hbefore : (ofData data).Precedes a b) (hafter : (ofData (data ++ [more])).Precedes b a) :
    more.count a < more.count b := by
  obtain ⟨-, -, hrank⟩ := precedes_ofData_iff.1 hbefore
  obtain ⟨-, -, hturned⟩ := (precedes_append_iff hknown).1 hafter
  unfold Outranks at hrank
  omega

end Vocabulary

/-! ### Counting with a table -/

/-- A table of numbers of tokens.  It is known by what it answers; in which order it keeps its
entries is its own matter. -/
structure TokenTable (τ : Type) where
  empty : τ
  get? : τ → String → Option Nat
  insert : τ → String → Nat → τ
  get?_empty : ∀ token, get? empty token = none
  get?_insert : ∀ entries token number other,
    get? (insert entries token number) other =
      if token = other then some number else get? entries other

namespace TokenTable

open Vocabulary (lastPlace?)

variable {τ : Type} (table : TokenTable τ)

/-- The table that is a hash map; the hash function determines the order of its entries. -/
def hashed (hash : String → UInt64) : TokenTable (@Std.HashMap String Nat _ ⟨hash⟩) :=
  letI : Hashable String := ⟨hash⟩
  { empty := {}
    get? := fun entries token => entries[token]?
    insert := fun entries token number => entries.insert token number
    get?_empty := fun _ => Std.HashMap.getElem?_empty
    get?_insert := fun entries token number other => by
      rw [Std.HashMap.getElem?_insert]
      simp only [beq_iff_eq] }

/-- What is known when a part of the tokens has been counted. -/
structure Tally (τ : Type) where
  /-- The tokens, in the order in which they first occurred. -/
  order : List String
  counts : τ

/-- The count of a token. -/
def countOf (tally : Tally τ) (token : String) : Nat :=
  (table.get? tally.counts token).getD 0

/-- Counts one more token. -/
def tally (before : Tally τ) (token : String) : Tally τ where
  order := if table.countOf before token = 0 then before.order ++ [token] else before.order
  counts := table.insert before.counts token (table.countOf before token + 1)

/-- Counts tokens, one after another. -/
def tallyAll (tokens : List String) : Tally τ :=
  tokens.foldl table.tally ⟨[], table.empty⟩

/-- The tokens, sorted by the counts that the table answers. -/
def ordered (tokens : List String) : List String :=
  let after := table.tallyAll tokens
  after.order.mergeSort fun a b => decide (table.countOf after b ≤ table.countOf after a)

/-- The places of tokens, entered one after another. -/
def numbered (tokens : List String) : τ :=
  tokens.zipIdx.foldl (fun entries entry => table.insert entries entry.1 entry.2) table.empty

/-- The order is that of the first occurrences, and the table has an entry for just the tokens that
occurred, with the number of their occurrences. -/
structure Tallied (tokens : List String) (tally : Tally τ) : Prop where
  order : tally.order = tokens.eraseDups
  counts : ∀ token, table.get? tally.counts token =
    if token ∈ tokens then some (tokens.count token) else none

variable {table} {tokens : List String} {before : Tally τ}

/-- A tallied table holds each token's number of occurrences. -/
theorem Tallied.countOf_eq (h : table.Tallied tokens before) (token : String) :
    table.countOf before token = tokens.count token := by
  rw [countOf, h.counts]
  split
  · rfl
  · rename_i hnone
    exact (List.count_eq_zero.2 hnone).symm

/-- Counting one more token keeps what is known. -/
theorem Tallied.tally (h : table.Tallied tokens before) (token : String) :
    table.Tallied (tokens ++ [token]) (table.tally before token) where
  order := by
    simp only [TokenTable.tally, h.countOf_eq, List.count_eq_zero, h.order, ite_not,
      eraseDups_append_singleton]
  counts := by
    intro other
    rw [TokenTable.tally, table.get?_insert, h.countOf_eq, h.counts, List.count_append,
      List.count_singleton]
    by_cases hother : token = other
    · simp [hother]
    · simp [hother, Ne.symm hother]

/-- Whatever is counted, the order and the counts are those of all the tokens. -/
theorem tallied_tallyAll (table : TokenTable τ) (tokens : List String) :
    table.Tallied tokens (table.tallyAll tokens) := by
  induction tokens using List.reverseRecOn with
  | nil => exact ⟨rfl, table.get?_empty⟩
  | append_singleton tokens token ih =>
    rw [tallyAll, List.foldl_append]
    exact ih.tally token

/-- Each table leads to the order of the vocabulary. -/
theorem ordered_eq (table : TokenTable τ) (data : List (List String)) :
    table.ordered data.flatten = (Vocabulary.ofData data).tokens := by
  have htallied := table.tallied_tallyAll data.flatten
  simp only [ordered, htallied.order, htallied.countOf_eq, Vocabulary.tokens_ofData]

/-- The number of a token is the one that was entered last. -/
theorem get?_foldl_zipIdx (table : TokenTable τ) (tokens : List String) (start : Nat)
    (entries : τ) (token : String) :
    table.get? ((tokens.zipIdx start).foldl
        (fun entries entry => table.insert entries entry.1 entry.2) entries) token =
      (lastPlace? token start tokens).or (table.get? entries token) := by
  induction tokens generalizing start entries with
  | nil => rfl
  | cons other rest ih =>
    rw [List.zipIdx_cons, List.foldl_cons, ih, table.get?_insert, lastPlace?, Option.or_assoc]
    split <;> rfl

/-- Each table answers the numbers of the tokens. -/
theorem get?_numbered (table : TokenTable τ) (vocabulary : Vocabulary) (token : String) :
    table.get? (table.numbered vocabulary.tokens) token = vocabulary.index? token := by
  rw [numbered, get?_foldl_zipIdx, table.get?_empty, Option.or_none]
  rfl

end TokenTable

namespace Vocabulary

/-- How the vocabulary of data is ordered.

It lists each token once that occurs in the data, and no other; one token precedes another one
exactly if it occurs more often in all the lists together, or as often and first, so that of two
tokens one precedes the other; and listing and look-up are the inverse of each other.

A pass over the data that counts with a table, whatever the order of its entries, asks the table for
no count that it does not have; the order that results is that of the vocabulary, and a table into
which the places are entered answers the numbers of the tokens.

A list of known tokens that is added to the data leaves the tokens of the vocabulary as they are.
It turns two of them round only if the one that comes first afterwards is the one that gained more,
and it leaves those in order that gained equally much. -/
theorem ofData_ranks_tokens (data : List (List String)) :
    (ofData data).tokens.Nodup ∧
    (∀ token, token ∈ (ofData data).tokens ↔ ∃ tokens ∈ data, token ∈ tokens) ∧
    (∀ a b, (ofData data).Precedes a b ↔
      a ∈ data.flatten ∧ b ∈ data.flatten ∧ Outranks data.flatten a b) ∧
    (∀ a ∈ data.flatten, ∀ b ∈ data.flatten, a ≠ b →
      (ofData data).Precedes a b ∨ (ofData data).Precedes b a) ∧
    (∀ token place, (ofData data).index? token = some place ↔
      (ofData data).tokens[place]? = some token) ∧
    (∀ (τ : Type) (table : TokenTable τ),
      let after := table.tallyAll data.flatten
      (∀ token ∈ after.order,
        table.get? after.counts token = some (data.flatten.count token)) ∧
      table.ordered data.flatten = (ofData data).tokens ∧
      ∀ token, table.get? (table.numbered (table.ordered data.flatten)) token =
        (ofData data).index? token) ∧
    ∀ more, (∀ token ∈ more, token ∈ (ofData data).tokens) →
      (ofData (data ++ [more])).tokens.Perm (ofData data).tokens ∧
      (∀ a b, (ofData data).Precedes a b → (ofData (data ++ [more])).Precedes b a →
        more.count a < more.count b) ∧
      ∀ a b, more.count a = more.count b →
        ((ofData (data ++ [more])).Precedes a b ↔ (ofData data).Precedes a b) := by
  refine ⟨nodup_tokens_ofData data, fun _ => mem_tokens_ofData, fun _ _ => precedes_ofData_iff,
    fun _ ha _ => precedes_or_precedes ha, fun _ _ => index?_ofData_eq_some_iff,
    fun τ table => ⟨?_, table.ordered_eq data, ?_⟩,
    fun more hknown => ⟨perm_tokens_append hknown,
      fun _ _ => count_lt_of_precedes_append hknown,
      fun _ _ => precedes_append_of_count_eq hknown⟩⟩
  · have htallied := table.tallied_tallyAll data.flatten
    intro token htoken
    rw [htallied.order, List.mem_eraseDups] at htoken
    rw [htallied.counts, if_pos htoken]
  · intro token
    rw [table.ordered_eq]
    exact table.get?_numbered _ token

/-- Two tokens occur twice, one of them within a single list, and two occur once.  One of each pair
is added, and passes the other one; a hash map that keeps all of them in one bucket makes no
difference. -/
theorem ofData_ranks_tokens_turned :
    let data := [["close", "read", "read"], ["write", "close"], ["flush"]]
    let more := ["read", "flush"]
    (ofData data).tokens = ["close", "read", "write", "flush"] ∧
    (TokenTable.hashed fun _ => 0).ordered data.flatten = ["close", "read", "write", "flush"] ∧
    (ofData (data ++ [more])).tokens = ["read", "close", "flush", "write"] ∧
    (ofData (data ++ [more])).tokens.Perm (ofData data).tokens ∧
    (ofData data).Precedes "close" "read" ∧ (ofData (data ++ [more])).Precedes "read" "close" ∧
    more.count "close" < more.count "read" := by
  intro data more
  obtain ⟨-, -, hbefore, -, -, htable, hadded⟩ := ofData_ranks_tokens data
  obtain ⟨-, -, hafter, -⟩ := ofData_ranks_tokens (data ++ [more])
  have htokens : (ofData data).tokens = ["close", "read", "write", "flush"] := by cbv
  have hknown : ∀ token ∈ more, token ∈ (ofData data).tokens := by
    rw [htokens]
    decide
  obtain ⟨hperm, hpassed, -⟩ := hadded more hknown
  have hfirst : (ofData data).Precedes "close" "read" := by
    refine (hbefore _ _).2 ?_
    unfold Outranks
    decide
  have hturned : (ofData (data ++ [more])).Precedes "read" "close" := by
    refine (hafter _ _).2 ?_
    unfold Outranks
    decide
  exact ⟨htokens, (htable _ _).2.1.trans htokens, by cbv, hperm, hfirst, hturned,
    hpassed _ _ hfirst hturned⟩

end Vocabulary

end EvidenceSynthesis
