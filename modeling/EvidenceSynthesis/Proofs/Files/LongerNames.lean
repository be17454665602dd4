import EvidenceSynthesis.Proofs.Files.Operations
import EvidenceSynthesis.Proofs.Text.Pieces
import Mathlib

/-!
# Names that are made longer

The text of a path to a file ends with the name of the file.  A suffix without a slash makes this
name longer and leads nowhere else: to a place in the same directory, and with another suffix to
another place (`FileStore.exists_places`).

Which of these places there are is a matter of the directories alone.  A path that leads to none,
since the longer name is too long or is that of a directory, fails in the same way whatever becomes
of the files.
-/

namespace EvidenceSynthesis

open Text (Octets)

/-! ### The last name of a path -/

/-- What follows the last separator is the last piece, and more of it makes just that piece
longer. -/
theorem Text.exists_last_splitOn {α : Type} [BEq α] [LawfulBEq α] (sep : α) (text : List α) :
    ∃ front last, (last = [] → text = [] ∨ text.getLast? = some sep) ∧
      ∀ suffix, sep ∉ suffix → (text ++ suffix).splitOn sep = front ++ [last ++ suffix] := by
  obtain ⟨before, last, rfl, hlast, hbefore⟩ := exists_last_piece sep text
  have hplain : ∀ suffix, sep ∉ suffix → sep ∉ last ++ suffix := fun suffix hsuffix =>
    List.not_mem_append hlast hsuffix
  rcases List.eq_nil_or_concat before with rfl | ⟨front, c, rfl⟩
  · refine ⟨[], last, fun hnil => Or.inl hnil, fun suffix hsuffix => ?_⟩
    rw [List.nil_append, List.nil_append, List.splitOn_eq_singleton (hplain suffix hsuffix)]
  · obtain rfl := hbefore c (by simp)
    refine ⟨front.splitOn c, last, ?_, fun suffix hsuffix => ?_⟩
    · rintro rfl
      exact Or.inr (by simp)
    · rw [List.concat_append, List.append_assoc, List.cons_append, List.splitOn_append_cons_self,
        List.splitOn_eq_singleton (hplain suffix hsuffix)]

namespace FilePath

/-- A part of a path enters a name unless it is empty, one dot or two. -/
theorem step?_eq_enter_iff {chars : List Char} {name : String} :
    step? chars = some (.enter name) ↔
      chars ≠ [] ∧ chars ≠ ['.'] ∧ chars ≠ ['.', '.'] ∧ String.ofList chars = name := by
  unfold step?
  split <;> simp_all

/-- A name stays a name when it is made longer. -/
theorem step?_append {chars : List Char} {name : String} (h : step? chars = some (.enter name))
    (suffix : List Char) :
    step? (chars ++ suffix) = some (.enter (name ++ String.ofList suffix)) := by
  obtain ⟨hnil, hdot, hdots, rfl⟩ := step?_eq_enter_iff.1 h
  -- what is no longer than two dots would itself be part of two dots
  have hpart : ∀ others, chars ++ suffix = others → others <+: ['.', '.'] → False := by
    rintro _ rfl hothers
    have hchars : chars ∈ ['.', '.'].inits :=
      (List.mem_inits _ _).2 ((List.prefix_append chars suffix).trans hothers)
    simp [hnil, hdot, hdots] at hchars
  refine step?_eq_enter_iff.2 ⟨fun heq => ?_, fun heq => ?_, fun heq => ?_, ?_⟩
  · exact hpart _ heq List.nil_prefix
  · exact hpart _ heq ⟨['.'], rfl⟩
  · exact hpart _ heq List.prefix_rfl
  · rw [String.ofList_append]

theorem step?_eq_none_iff {chars : List Char} : step? chars = none ↔ chars = [] := by
  unfold step?
  split <;> simp_all

/-- A text is a path exactly if it is neither empty nor too long. -/
theorem ofText_eq_ok_iff {text : String} {path : FilePath} :
    ofText text = .ok path ↔
      text ≠ "" ∧ text.utf8ByteSize ≤ textBound ∧
        path = ⟨(text.toList.splitOn '/').filterMap step?, text.toList.getLast? == some '/'⟩ := by
  unfold ofText
  split
  case isTrue h => simp [String.isEmpty_iff.1 h]
  case isFalse h =>
    rw [String.isEmpty_iff] at h
    split
    case isTrue hlong => exact iff_of_false nofun fun ⟨_, hshort, _⟩ => absurd hlong (by omega)
    case isFalse hshort =>
      rw [Except.ok.injEq, eq_comm]
      exact ⟨fun heq => ⟨h, by omega, heq⟩, fun heq => heq.2.2⟩

/-- The path of a file ends with its name, and a suffix makes this name longer. -/
theorem exists_last_name {text : String} {path : FilePath} (h : ofText text = .ok path)
    (hfile : path.namesDirectory = false) :
    ∃ before name, path = ⟨before ++ [.enter name], false⟩ ∧
      ∀ suffix : String, '/' ∉ suffix.toList →
        ofText (text ++ suffix) =
          if textBound < (text ++ suffix).utf8ByteSize then .error .nameTooLong
          else .ok ⟨before ++ [.enter (name ++ suffix)], false⟩ := by
  obtain ⟨hempty, -, rfl⟩ := ofText_eq_ok_iff.1 h
  obtain ⟨front, last, hlast, hsplit⟩ := Text.exists_last_splitOn '/' text.toList
  have hpieces := hsplit [] (by simp)
  rw [List.append_nil, List.append_nil] at hpieces
  simp only [namesDirectory, hpieces, List.filterMap_append, Bool.or_eq_false_iff] at hfile
  obtain ⟨hslash, hfile⟩ := hfile
  have hne : last ≠ [] := by
    intro hnil
    rcases hlast hnil with hnone | hend
    · exact hempty (String.toList_inj.1 hnone)
    · simp [hend] at hslash
  obtain ⟨step, hstep⟩ := Option.ne_none_iff_exists'.1 (mt step?_eq_none_iff.1 hne)
  rw [List.filterMap_cons_some hstep, List.filterMap_nil, List.getLast?_append,
    List.getLast?_singleton, Option.some_or] at hfile
  obtain ⟨name, rfl⟩ : ∃ name, step = .enter name := by
    cases step with
    | enter name => exact ⟨name, rfl⟩
    | _ => cases hfile
  refine ⟨front.filterMap step?, name, ?_, fun suffix hsuffix => ?_⟩
  · rw [hpieces, List.filterMap_append, List.filterMap_cons_some hstep, List.filterMap_nil, hslash]
  · have hlonger : text ++ suffix ≠ "" := fun hnil => hempty (String.append_eq_empty_iff.1 hnil).1
    have hend : ((text.toList ++ suffix.toList).getLast? == some '/') = false := by
      rw [List.getLast?_append]
      cases hsuffixLast : suffix.toList.getLast? with
      | none => simpa using hslash
      | some c =>
        have hc : c ≠ '/' := fun heq => hsuffix (heq ▸ List.mem_of_getLast? hsuffixLast)
        simpa using hc
    have hname : String.ofList suffix.toList = suffix := String.ofList_toList
    by_cases hlong : textBound < (text ++ suffix).utf8ByteSize
    · rw [if_pos hlong, ofText, if_neg (mt String.isEmpty_iff.1 hlonger), if_pos hlong]
    · rw [if_neg hlong]
      refine ofText_eq_ok_iff.2 ⟨hlonger, by omega, ?_⟩
      rw [String.toList_append, hsplit _ hsuffix, hend, List.filterMap_append,
        List.filterMap_cons_some (step?_append hstep suffix.toList), List.filterMap_nil, hname]

end FilePath

namespace FileStore

variable {store : FileStore} {location : Location}

/-! ### Ways through directories -/

theorem enterFault?_eq_none_iff :
    store.enterFault? location = none ↔ store.isDirectory location = true := by
  unfold enterFault?
  split
  case isTrue h => simp [h]
  case isFalse h =>
    refine iff_of_false ?_ h
    split <;> nofun

theorem follow_append (store : FileStore) (location : Location) (steps others : List PathStep) :
    store.follow location (steps ++ others) =
      store.follow location steps >>= fun next => store.follow next others := by
  induction steps generalizing location with
  | nil => rfl
  | cons step rest ih =>
    rw [List.cons_append, follow, follow]
    cases store.enterFault? location with
    | some fault => rfl
    | none =>
      cases move location step with
      | error fault => rfl
      | ok next => exact ih next

/-- Stores of the same directories agree on what is one. -/
theorem isDirectory_congr {other : FileStore} (h : other.directories = store.directories)
    (location : Location) : other.isDirectory location = store.isDirectory location := by
  rw [isDirectory, h, isDirectory]

/-- A way through directories is there as long as these are. -/
theorem follow_congr {other : FileStore} (h : other.directories = store.directories)
    {steps : List PathStep} {next : Location} (hfollow : store.follow location steps = .ok next) :
    other.follow location steps = .ok next := by
  induction steps generalizing location with
  | nil => exact hfollow
  | cons step rest ih =>
    rw [follow] at hfollow ⊢
    cases hfault : store.enterFault? location with
    | some fault =>
      rw [hfault] at hfollow
      cases hfollow
    | none =>
      rw [hfault] at hfollow
      rw [enterFault?_eq_none_iff, ← isDirectory_congr h, ← enterFault?_eq_none_iff] at hfault
      rw [hfault]
      cases hmove : move location step with
      | error fault =>
        rw [hmove] at hfollow
        cases hfollow
      | ok found =>
        rw [hmove] at hfollow
        exact ih hfollow

/-! ### Places in one directory -/

/-- Why a name in a directory is no place for a file. -/
def nameFault? (store : FileStore) (parent : Location) (name : String) : Option FileError :=
  if FilePath.nameBound < name.utf8ByteSize then some .nameTooLong
  else if store.isDirectory (parent ++ [name]) then some .isDirectory
  else none

/-- A path that names no directory has a place where it leads to none. -/
theorem placeFor_eq {path : FilePath} (hfile : path.namesDirectory = false) :
    store.placeFor path = store.locate path >>= fun location =>
      if store.isDirectory location then .error .isDirectory else .ok location := by
  unfold placeFor
  rw [hfile]
  cases store.locate path with
  | error fault => rfl
  | ok location =>
    simp only [bind, Except.bind, Bool.false_or]
    cases store.isDirectory location <;> rfl

/-- A file is read at its place. -/
theorem read_eq {path : FilePath} (hfile : path.namesDirectory = false) :
    store.read path = store.placeFor path >>= fun location => found (store.content? location) := by
  rw [placeFor_eq hfile]
  unfold read fileAt
  rw [hfile]
  cases store.locate path with
  | error fault => rfl
  | ok location =>
    simp only [bind, Except.bind]
    cases store.isDirectory location with
    | true => rfl
    | false =>
      show _ = found (store.content? location)
      cases store.content? location <;> rfl

/-- Below a directory, the last name of a path decides on the place. -/
theorem placeFor_enter {before : List PathStep} {parent : Location} (name : String)
    (hparent : store.follow [] before = .ok parent) (hdirectory : store.isDirectory parent = true) :
    store.placeFor ⟨before ++ [.enter name], false⟩ =
      match store.nameFault? parent name with
      | some fault => .error fault
      | none => .ok (parent ++ [name]) := by
  have hfault := enterFault?_eq_none_iff.2 hdirectory
  have hfile : (FilePath.mk (before ++ [.enter name]) false).namesDirectory = false := by
    simp [FilePath.namesDirectory]
  have hlocate : store.locate ⟨before ++ [.enter name], false⟩ = move parent (.enter name) := by
    rw [locate, follow_append, hparent]
    simp only [bind, Except.bind, follow, hfault]
    cases move parent (.enter name) <;> rfl
  rw [placeFor_eq hfile, hlocate, move, nameFault?]
  by_cases hlong : FilePath.nameBound < name.utf8ByteSize
  · simp only [if_pos hlong]
    rfl
  · simp only [if_neg hlong, bind, Except.bind]
    cases store.isDirectory (parent ++ [name]) <;> rfl

/-- Suffixes of a path lead to different places in the directory of the file.  Where they lead to
and why they lead to no place depends on the directories alone, and what is read there on the
content of the place alone. -/
theorem exists_places {path : String} (h : store.placeAt path = .ok location) :
    ∃ place : String → Location, Function.Injective place ∧
      ∀ suffix : String, '/' ∉ suffix.toList →
        (∀ target, store.placeAt (path ++ suffix) = .ok target → target = place suffix) ∧
        ∀ later : FileStore, later.directories = store.directories →
          later.placeAt (path ++ suffix) = store.placeAt (path ++ suffix) ∧
          later.readAt (path ++ suffix) = later.placeAt (path ++ suffix) >>= fun target =>
            found (later.content? target) := by
  obtain ⟨steps, htext, hsteps⟩ := placeAt_eq_ok_iff.1 h
  obtain ⟨hlocate, hfile, -⟩ := placeFor_eq_ok_iff.1 hsteps
  obtain ⟨before, name, rfl, hlonger⟩ := FilePath.exists_last_name htext hfile
  obtain ⟨parent, hparent, hname⟩ : ∃ parent, store.follow [] before = .ok parent ∧
      store.follow parent [.enter name] = .ok location := by
    rw [locate, follow_append] at hlocate
    exact bind_eq_ok_iff.1 hlocate
  have hdirectory : store.isDirectory parent = true := by
    rw [← enterFault?_eq_none_iff]
    rw [follow] at hname
    cases hfault : store.enterFault? parent with
    | none => rfl
    | some fault =>
      rw [hfault] at hname
      cases hname
  refine ⟨fun suffix => parent ++ [name ++ suffix], fun suffix other heq => ?_,
    fun suffix hsuffix => ⟨fun target htarget => ?_, fun later hlater => ?_⟩⟩
  · simpa using heq
  · obtain ⟨found, hfound, hplace⟩ := placeAt_eq_ok_iff.1 htarget
    rw [hlonger suffix hsuffix] at hfound
    split at hfound
    · cases hfound
    · cases hfound
      rw [placeFor_enter _ hparent hdirectory] at hplace
      split at hplace
      · cases hplace
      · exact (Except.ok.inj hplace).symm
  · have hlaterParent := follow_congr hlater hparent
    have hlaterDirectory : later.isDirectory parent = true := by
      rw [isDirectory_congr hlater, hdirectory]
    have hfaults : later.nameFault? parent = store.nameFault? parent := by
      funext name
      rw [nameFault?, isDirectory_congr hlater, nameFault?]
    rw [placeAt, placeAt, readAt, hlonger suffix hsuffix]
    split
    · exact ⟨rfl, rfl⟩
    · constructor
      · show later.placeFor _ = store.placeFor _
        rw [placeFor_enter _ hlaterParent hlaterDirectory, placeFor_enter _ hparent hdirectory,
          hfaults]
      · show later.read _ = later.placeFor _ >>= _
        exact read_eq (by simp [FilePath.namesDirectory])

end FileStore

end EvidenceSynthesis
