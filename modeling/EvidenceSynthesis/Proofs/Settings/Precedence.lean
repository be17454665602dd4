import EvidenceSynthesis.Settings.SearchSettings
import EvidenceSynthesis.Proofs.Text.Utf8
import Mathlib

/-!
# Precedence of settings

Each limit of a search is the one of the command line; where it gives none, that of the file; and
the standard one otherwise (`SearchSettings.mergedValue`).  The limits of the file are not allowed
to be zero, and neither are the merged ones.  The file is looked at first and by itself, so that a
zero in it is refused even where the command line would have replaced it.

Main statement: which limits come into force, and when two files lead to the same result
(`SearchSettings.resolve_takes_overrides`).
-/

namespace EvidenceSynthesis

/-! ### Limits by their names -/

/-- The names in the order in which the limits are looked at. -/
def LimitName.all : List LimitName :=
  [maxDraws, gapThreshold, topK]

theorem LimitName.mem_all (name : LimitName) : name ∈ all := by
  cases name <;> decide

/-- How many values a limit can have. -/
def LimitName.bound : LimitName → ℕ
  | maxDraws => Word.bound64
  | gapThreshold => Word.bound32
  | topK => Word.bound64

theorem LimitName.text_injective : Function.Injective LimitName.text := by
  intro name other h
  cases name <;> cases other <;> first | rfl | exact absurd h (by decide)

namespace Limits

variable {limits : Limits}

/-- The limit of a name. -/
def get (limits : Limits) : LimitName → ℕ
  | .maxDraws => limits.maxDraws.toNat
  | .gapThreshold => limits.gapThreshold.toNat
  | .topK => limits.topK.toNat

theorem ext_get {others : Limits} (h : ∀ name, limits.get name = others.get name) :
    limits = others := by
  obtain ⟨draws, gap, top⟩ := limits
  obtain ⟨draws', gap', top'⟩ := others
  congr
  · exact UInt64.toNat_inj.1 (h .maxDraws)
  · exact UInt32.toNat_inj.1 (h .gapThreshold)
  · exact UInt64.toNat_inj.1 (h .topK)

/-- The first of the limits whose value is zero. -/
def firstZero? (value : LimitName → ℕ) : Option LimitName :=
  LimitName.all.find? fun name => value name = 0

/-- No limit is reported exactly if none is zero. -/
theorem firstZero?_eq_none_iff {value : LimitName → ℕ} :
    firstZero? value = none ↔ ∀ name, value name ≠ 0 := by
  simp only [firstZero?, List.find?_eq_none, decide_eq_true_eq]
  exact ⟨fun h name => h name name.mem_all, fun h name _ => h name⟩

/-- The zero limit that is reported is the first. -/
theorem zeroLimit?_eq (limits : Limits) : limits.zeroLimit? = firstZero? limits.get := by
  have hdraws : limits.maxDraws = 0 ↔ limits.get .maxDraws = 0 := UInt64.toNat_inj.symm
  have hgap : limits.gapThreshold = 0 ↔ limits.get .gapThreshold = 0 := UInt32.toNat_inj.symm
  have htop : limits.topK = 0 ↔ limits.get .topK = 0 := UInt64.toNat_inj.symm
  simp only [zeroLimit?, hdraws, hgap, htop, firstZero?, LimitName.all, List.find?_cons,
    List.find?_nil]
  by_cases hfirst : limits.get .maxDraws = 0
  · simp [hfirst]
  · by_cases hsecond : limits.get .gapThreshold = 0
    · simp [hfirst, hsecond]
    · by_cases hthird : limits.get .topK = 0 <;> simp [hfirst, hsecond, hthird]

theorem validate_of_zeroLimit? {name : LimitName} (h : limits.zeroLimit? = some name) :
    limits.validate = .error (.zeroLimit name) := by
  unfold validate
  split
  case h_1 other hother => rw [Option.some.inj (hother.symm.trans h)]
  case h_2 hnone => cases hnone.symm.trans h

theorem validate_of_isValid (h : limits.IsValid) : limits.validate = .ok ⟨limits, h⟩ := by
  unfold validate
  split
  case h_1 name hname => cases hname.symm.trans (zeroLimit?_eq_none_iff.2 h)
  case h_2 => rfl

/-! ### Limits that assignments set -/

/-- A known name is assigned a number that the limit can have. -/
def IsSetting (entry : String × ℤ) : Prop :=
  ∃ name : LimitName, entry.1 = name.text ∧ 0 ≤ entry.2 ∧ entry.2 < name.bound

instance (entry : String × ℤ) : Decidable (IsSetting entry) :=
  decidable_of_iff
    (∃ name ∈ LimitName.all, entry.1 = name.text ∧ 0 ≤ entry.2 ∧ entry.2 < name.bound)
    ⟨fun ⟨name, _, h⟩ => ⟨name, h⟩, fun ⟨name, h⟩ => ⟨name, name.mem_all, h⟩⟩

/-- What assignments give for a limit. -/
def assigned? (assignments : Assignments) (name : LimitName) : Option ℕ :=
  (assignments.lookup name.text).map Int.toNat

/-- A setting gives its limit the number and leaves the others as they are. -/
theorem exists_set? (limits : Limits) (name : LimitName) {n : ℤ} (hpositive : 0 ≤ n)
    (hbound : n < name.bound) :
    ∃ later, limits.set? name.text n = some later ∧
      ∀ other, later.get other = if other = name then n.toNat else limits.get other := by
  have hword : n.toNat < name.bound := by omega
  have hnegative : ¬ n < 0 := not_lt.2 hpositive
  cases name with
  | maxDraws =>
    refine ⟨{ limits with maxDraws := UInt64.ofNat n.toNat }, ?_, fun other => ?_⟩
    · rw [set?, if_neg hnegative, if_pos rfl]
    · cases other with
      | maxDraws => exact UInt64.toNat_ofNat_of_lt hword
      | _ => rfl
  | gapThreshold =>
    refine ⟨{ limits with gapThreshold := UInt32.ofNat n.toNat }, ?_, fun other => ?_⟩
    · rw [set?, if_neg hnegative, if_neg (by decide), if_pos rfl]
      exact if_pos hbound
    · cases other with
      | gapThreshold => exact UInt32.toNat_ofNat_of_lt hword
      | _ => rfl
  | topK =>
    refine ⟨{ limits with topK := UInt64.ofNat n.toNat }, ?_, fun other => ?_⟩
    · rw [set?, if_neg hnegative, if_neg (by decide), if_neg (by decide), if_pos rfl]
    · cases other with
      | topK => exact UInt64.toNat_ofNat_of_lt hword
      | _ => rfl

/-- Settings that name no limit twice set the limits that they name. -/
theorem exists_foldlM_set? {assignments : Assignments} (limits : Limits)
    (hsettings : ∀ entry ∈ assignments, IsSetting entry) (hnodup : (assignments.map (·.1)).Nodup) :
    ∃ later, assignments.foldlM (fun limits entry => limits.set? entry.1 entry.2) limits =
        some later ∧
      ∀ name, later.get name = (assigned? assignments name).getD (limits.get name) := by
  induction assignments generalizing limits with
  | nil => exact ⟨limits, rfl, fun _ => rfl⟩
  | cons entry rest ih =>
    obtain ⟨key, n⟩ := entry
    obtain ⟨name, rfl, hpositive, hbound⟩ := hsettings _ List.mem_cons_self
    rw [List.map_cons, List.nodup_cons] at hnodup
    obtain ⟨hnew, hrest⟩ := hnodup
    obtain ⟨between, hset, hbetween⟩ := limits.exists_set? name hpositive hbound
    obtain ⟨later, hlater, hget⟩ :=
      ih between (fun entry hentry => hsettings entry (List.mem_cons_of_mem _ hentry)) hrest
    refine ⟨later, ?_, fun other => ?_⟩
    · rw [List.foldlM_cons, hset]
      exact hlater
    · rw [hget, hbetween, assigned?, assigned?, List.lookup_cons]
      by_cases hother : other = name
      · have hnone : rest.lookup name.text = none := by
          rw [List.lookup_eq_none_iff]
          intro entry hentry
          exact bne_iff_ne.2 fun heq => hnew (List.mem_map.2 ⟨entry, hentry, heq.symm⟩)
        rw [hother, if_pos rfl, hnone, beq_self_eq_true]
        rfl
      · have hkey : (other.text == name.text) = false :=
          beq_eq_false_iff_ne.2 fun heq => hother (LimitName.text_injective heq)
        rw [if_neg hother, hkey]

end Limits

open Limits (IsSetting assigned? firstZero?)

namespace LimitOverrides

/-- The limit that is put in place of others. -/
def get? (overrides : LimitOverrides) : LimitName → Option ℕ
  | .maxDraws => overrides.maxDraws.map UInt64.toNat
  | .gapThreshold => overrides.gapThreshold.map UInt32.toNat
  | .topK => overrides.topK.map UInt64.toNat

/-- A limit is the override, if there is one, and the given value otherwise. -/
theorem get_apply (overrides : LimitOverrides) (limits : Limits) (name : LimitName) :
    (overrides.apply limits).get name = (overrides.get? name).getD (limits.get name) := by
  obtain ⟨draws, gap, top⟩ := overrides
  cases name with
  | maxDraws => cases draws <;> rfl
  | gapThreshold => cases gap <;> rfl
  | topK => cases top <;> rfl

end LimitOverrides

namespace SearchSettings

/-! ### Values in force -/

/-- The limit of a file, or the standard one if the file has none. -/
def fileValue (assignments : Assignments) (name : LimitName) : ℕ :=
  (assigned? assignments name).getD (Limits.standard.get name)

/-- The limit of the command line, or that of the file, or the standard one. -/
def mergedValue (overrides : LimitOverrides) (assignments : Assignments) (name : LimitName) : ℕ :=
  (overrides.get? name).getD (fileValue assignments name)

/-- What a file assigns that has nothing but numbers for known names in it; there may be no file at
all. -/
inductive Assigns : Option (Except FileError Text.Octets) → Assignments → Prop
  | absent : Assigns none []
  | file {octets : Text.Octets} {text : String} {assignments : Assignments}
    (hdecode : Text.Utf8.decode octets = .ok text)
    (hread : Assignments.ofText? text = some assignments)
    (hsettings : ∀ entry ∈ assignments, IsSetting entry) : Assigns (some (.ok octets)) assignments

/-- What is reported of a limit in a file that is zero. -/
def fileFailure (path : String) (name : LimitName) : Failure :=
  (SearchError.zeroLimit name).toFailure.within s!"Failed to load search settings {path}"

/-- No setting is assigned twice. -/
theorem Assignments.nodup_of_ofText? {text : String} {assignments : Assignments}
    (h : Assignments.ofText? text = some assignments) : (assignments.map (·.1)).Nodup := by
  obtain ⟨found, -, hfound⟩ := Option.bind_eq_some_iff.1 h
  dsimp only at hfound
  split at hfound
  case isTrue hnodup =>
    rw [← Option.some.inj hfound]
    exact hnodup
  case isFalse => cases hfound

variable {path : String} {file other : Option (Except FileError Text.Octets)}
variable {assignments others : Assignments} {overrides : LimitOverrides}

theorem firstZero?_standard : firstZero? Limits.standard.get = none := by
  decide

/-- The limits of a file by themselves; a zero among them is refused. -/
theorem exists_base (path : String) (h : Assigns file assignments) :
    ∃ limits : Limits, (∀ name, limits.get name = fileValue assignments name) ∧
      base path file =
        match firstZero? (fileValue assignments) with
        | some name => .error (fileFailure path name)
        | none => .ok limits := by
  cases h with
  | absent =>
    refine ⟨.standard, fun _ => rfl, ?_⟩
    have hnone : firstZero? (fileValue []) = none := firstZero?_standard
    rw [hnone]
    rfl
  | @file octets text assignments hdecode hread hsettings =>
    obtain ⟨limits, hlimits, hget⟩ :=
      Limits.exists_foldlM_set? .standard hsettings (Assignments.nodup_of_ofText? hread)
    refine ⟨limits, hget, ?_⟩
    have hzero : limits.zeroLimit? = firstZero? (fileValue assignments) := by
      rw [limits.zeroLimit?_eq]
      exact congrArg firstZero? (funext hget)
    have hset : (Assignments.ofText? text).bind Limits.ofAssignments? = some limits := by
      rw [hread]
      exact hlimits
    simp only [base, Limits.ofFile, hdecode, Limits.ofText, hset, ← hzero]
    cases hname : limits.zeroLimit? with
    | some name => rw [Limits.validate_of_zeroLimit? hname]; rfl
    | none => rw [Limits.validate_of_isValid (Limits.zeroLimit?_eq_none_iff.1 hname)]

/-- The merged limits come into force unless one of them is zero, or one of the file. -/
theorem exists_resolve (path : String) (overrides : LimitOverrides) (h : Assigns file assignments) :
    ∃ limits : Limits, (∀ name, limits.get name = mergedValue overrides assignments name) ∧
      resolve path file overrides =
        match firstZero? (fileValue assignments) with
        | some name => .error (fileFailure path name)
        | none => limits.validate.mapError SearchError.toFailure := by
  obtain ⟨limits, hget, hbase⟩ := exists_base path h
  refine ⟨overrides.apply limits, fun name => ?_, ?_⟩
  · rw [overrides.get_apply, hget, mergedValue]
  · rw [resolve, hbase]
    cases firstZero? (fileValue assignments) <;> rfl

theorem mapError_validate_eq_ok_iff {limits : Limits} {valid : ValidLimits} :
    limits.validate.mapError SearchError.toFailure = .ok valid ↔ valid.1 = limits := by
  constructor
  · intro h
    cases hzero : limits.zeroLimit? with
    | some name =>
      rw [Limits.validate_of_zeroLimit? hzero] at h
      cases h
    | none =>
      rw [Limits.validate_of_isValid (Limits.zeroLimit?_eq_none_iff.1 hzero)] at h
      cases h
      rfl
  · rintro rfl
    rw [Limits.validate_of_isValid valid.2]
    rfl

/-! ### Failures of a file -/

theorem fileFailure_injective (path : String) : Function.Injective (fileFailure path) := by
  intro name other h
  have hmessage : (SearchError.zeroLimit name).message = (SearchError.zeroLimit other).message :=
    (List.cons.inj (congrArg Failure.causes h)).1
  cases name <;> cases other <;> first | rfl | exact absurd hmessage (by decide)

/-- A zero in the file is reported in another way than one on the command line. -/
theorem mapError_validate_ne_fileFailure (limits : Limits) (path : String) (name : LimitName) :
    limits.validate.mapError SearchError.toFailure ≠ .error (fileFailure path name) := by
  intro h
  cases hzero : limits.zeroLimit? with
  | some zero =>
    rw [Limits.validate_of_zeroLimit? hzero] at h
    have hcauses := congrArg Failure.causes (Except.error.inj h)
    cases hcauses
  | none =>
    rw [Limits.validate_of_isValid (Limits.zeroLimit?_eq_none_iff.1 hzero)] at h
    cases h

/-- Which limits come into force, and when two files lead to the same result.

Of a file that has nothing but numbers for known names in it, or of no file, each limit is taken
that the command line does not give, and where neither gives it, it is the standard one.  The limits
that come into force are the merged ones.  There are such exactly if none of them is zero and no
limit of the file is, also none that the command line would replace; otherwise the first limit of
the file that is zero is reported.

Two files that agree on the limits that the command line does not give lead to the same result,
whether there are limits or a failure, exactly if their first limit that is zero is the same; in
particular if neither has any. -/
theorem resolve_takes_overrides (path : String) (overrides : LimitOverrides)
    {file : Option (Except FileError Text.Octets)} {assignments : Assignments}
    (h : Assigns file assignments) :
    (∀ limits : ValidLimits, resolve path file overrides = .ok limits ↔
      (∀ name, fileValue assignments name ≠ 0) ∧
        ∀ name, limits.1.get name = mergedValue overrides assignments name) ∧
    ((∃ limits, resolve path file overrides = .ok limits) ↔
      (∀ name, fileValue assignments name ≠ 0) ∧
        ∀ name, mergedValue overrides assignments name ≠ 0) ∧
    (∀ name, firstZero? (fileValue assignments) = some name →
      resolve path file overrides = .error (fileFailure path name)) ∧
    ∀ other others, Assigns other others →
      (∀ name, overrides.get? name = none →
        fileValue assignments name = fileValue others name) →
      (resolve path file overrides = resolve path other overrides ↔
        firstZero? (fileValue assignments) = firstZero? (fileValue others)) := by
  obtain ⟨merged, hmerged, hresolve⟩ := exists_resolve path overrides h
  have hok : ∀ limits : ValidLimits, resolve path file overrides = .ok limits ↔
      (∀ name, fileValue assignments name ≠ 0) ∧
        ∀ name, limits.1.get name = mergedValue overrides assignments name := by
    intro limits
    rw [hresolve, ← Limits.firstZero?_eq_none_iff]
    cases firstZero? (fileValue assignments) with
    | some name => exact iff_of_false nofun nofun
    | none =>
      rw [mapError_validate_eq_ok_iff]
      simp only [true_and, ← hmerged]
      exact ⟨fun heq _ => heq ▸ rfl, Limits.ext_get⟩
  refine ⟨hok, ⟨?_, ?_⟩, fun name hname => ?_, fun other others hother hagree => ?_⟩
  · rintro ⟨limits, hlimits⟩
    obtain ⟨hfile, hget⟩ := (hok limits).1 hlimits
    refine ⟨hfile, ?_⟩
    rw [← Limits.firstZero?_eq_none_iff, ← funext hget, ← limits.1.zeroLimit?_eq]
    exact Limits.zeroLimit?_eq_none_iff.2 limits.2
  · rintro ⟨hfile, hnonzero⟩
    have hvalid : merged.IsValid := by
      rw [← Limits.zeroLimit?_eq_none_iff, merged.zeroLimit?_eq, funext hmerged]
      exact Limits.firstZero?_eq_none_iff.2 hnonzero
    exact ⟨⟨merged, hvalid⟩, (hok _).2 ⟨hfile, hmerged⟩⟩
  · rw [hresolve, hname]
  · obtain ⟨mergedOther, hmergedOther, hresolveOther⟩ := exists_resolve path overrides hother
    have hsame : mergedOther = merged := by
      apply Limits.ext_get
      intro name
      rw [hmerged, hmergedOther, mergedValue, mergedValue]
      cases hname : overrides.get? name with
      | some n => rfl
      | none => exact (hagree name hname).symm
    rw [hresolve, hresolveOther, hsame]
    cases firstZero? (fileValue assignments) with
    | none =>
      cases firstZero? (fileValue others) with
      | none => exact iff_of_true rfl rfl
      | some name => exact iff_of_false (mapError_validate_ne_fileFailure _ _ _) nofun
    | some name =>
      cases firstZero? (fileValue others) with
      | none => exact iff_of_false (mapError_validate_ne_fileFailure _ _ _).symm nofun
      | some zero =>
        simp only [Except.error.injEq, Option.some.injEq]
        exact (fileFailure_injective path).eq_iff

/-- A file of known settings assigns what its text does. -/
theorem assigns_encode {text : String} {assignments : Assignments}
    (hread : Assignments.ofText? text = some assignments)
    (hsettings : ∀ entry ∈ assignments, IsSetting entry) :
    Assigns (some (.ok (Text.Utf8.encode text))) assignments :=
  .file (Text.Utf8.decode_encode text) hread hsettings

/-- Two files that write one limit in different ways, and differ in a limit of the command line. -/
theorem resolve_takes_overrides_two :
    let overrides : LimitOverrides := ⟨none, none, some 3⟩
    let file := some (.ok (Text.Utf8.encode "max_draws = 40\ntop_k = 5\n"))
    let other := some (.ok (Text.Utf8.encode "# few\n\"top_k\" = +7\r\nmax_draws = 0x2_8 # draws"))
    Assigns file [("max_draws", 40), ("top_k", 5)] ∧
    Assigns other [("top_k", 7), ("max_draws", 40)] ∧
    (∃ limits, resolve "search.toml" file overrides = .ok limits ∧
      limits.1.get .maxDraws = 40 ∧ limits.1.get .gapThreshold = 10 ∧ limits.1.get .topK = 3) ∧
    resolve "search.toml" file overrides = resolve "search.toml" other overrides := by
  intro overrides file other
  have hfile : Assigns file [("max_draws", 40), ("top_k", 5)] :=
    assigns_encode (by cbv) (by decide)
  have hother : Assigns other [("top_k", 7), ("max_draws", 40)] :=
    assigns_encode (by cbv) (by decide)
  obtain ⟨hok, hexists, -, hsame⟩ := resolve_takes_overrides "search.toml" overrides hfile
  obtain ⟨limits, hlimits⟩ := hexists.2 ⟨by rintro (_ | _ | _) <;> decide,
    by rintro (_ | _ | _) <;> decide⟩
  have hget := ((hok limits).1 hlimits).2
  refine ⟨hfile, hother, ⟨limits, hlimits, hget .maxDraws, hget .gapThreshold, hget .topK⟩, ?_⟩
  apply (hsame other _ hother ?_).2 (by decide)
  rintro (_ | _ | _) hnone
  · decide
  · decide
  · cases hnone

/-- A zero in a file is refused although the command line gives the limit.  Another file that agrees
with it on all limits that the command line does not give leads to limits, and the merged limits of
the two are the same and none of them is zero. -/
theorem resolve_refuses_replaced_zero :
    let overrides : LimitOverrides := ⟨some 9, none, none⟩
    let file := some (.ok (Text.Utf8.encode "max_draws = 0\n"))
    let other := some (.ok (Text.Utf8.encode "max_draws = 7\n"))
    Assigns file [("max_draws", 0)] ∧ Assigns other [("max_draws", 7)] ∧
    (∀ name, overrides.get? name = none →
      fileValue [("max_draws", 0)] name = fileValue [("max_draws", 7)] name) ∧
    (∀ name, mergedValue overrides [("max_draws", 0)] name ≠ 0 ∧
      mergedValue overrides [("max_draws", 0)] name =
        mergedValue overrides [("max_draws", 7)] name) ∧
    resolve "search.toml" file overrides = .error (fileFailure "search.toml" .maxDraws) ∧
    ∃ limits, resolve "search.toml" other overrides = .ok limits ∧ limits.1 = ⟨9, 10, 10⟩ := by
  intro overrides file other
  have hfile : Assigns file [("max_draws", 0)] := assigns_encode (by cbv) (by decide)
  have hother : Assigns other [("max_draws", 7)] := assigns_encode (by cbv) (by decide)
  refine ⟨hfile, hother, ?_, ?_, ?_, ⟨⟨⟨9, 10, 10⟩, by decide⟩, ?_, rfl⟩⟩
  · rintro (_ | _ | _) hnone
    · cases hnone
    · decide
    · decide
  · rintro (_ | _ | _) <;> decide
  · obtain ⟨_, -, hresolve⟩ := exists_resolve "search.toml" overrides hfile
    exact hresolve
  · obtain ⟨merged, hmerged, hresolve⟩ := exists_resolve "search.toml" overrides hother
    rw [hresolve]
    apply mapError_validate_eq_ok_iff.2
    apply Limits.ext_get
    rintro (_ | _ | _) <;> rw [hmerged] <;> rfl

end SearchSettings

end EvidenceSynthesis
