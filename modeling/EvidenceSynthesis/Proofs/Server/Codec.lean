import EvidenceSynthesis.Proofs.Text.Utf8
import EvidenceSynthesis.Server.Frame

/-!
# Frames are read as they were written

A reader takes from the front of what has arrived a frame that a writer could have put there, and
nothing else: reading succeeds with a message and a rest exactly if the octets are the frame of
that message and then the rest (`Frame.read_eq_ok_iff`).  The same holds of any number of messages
one after another (`Frame.readMany_eq_ok_iff`), and of messages that are texts
(`Frame.readText_eq_ok_iff`).

Where reading fails, the first four octets tell why.  The length is looked at before the message:
a length that is negative or too great is reported however many octets follow
(`Frame.read_of_negative`, `Frame.read_of_tooLarge`), and only a length that is allowed is reported
as not reached (`Frame.read_of_truncated`).
-/

namespace EvidenceSynthesis.Frame

open Text (Octets)
open Text.Utf8 (decode encode decode_encode decode_eq_ok_iff isValidUTF8_iff)

/-! ### Lengths -/

/-- The length that four octets state is the signed integer whose bits they hold, the highest octet
first. -/
theorem statedLength_eq_toInt (a b c d : UInt8) :
    statedLength a b c d = (a.toBitVec ++ b.toBitVec ++ c.toBitVec ++ d.toBitVec).toInt := by
  have hb := b.toNat_lt
  have hc := c.toNat_lt
  have hd := d.toNat_lt
  have hbounds : Word.bound31 = 2147483648 ∧ Word.bound32 = 4294967296 := ⟨rfl, rfl⟩
  have hsign : a.toBitVec.toInt = if a.toNat < 128 then (a.toNat : Int) else a.toNat - 256 := by
    rw [BitVec.toInt_eq_toNat_cond, UInt8.toNat_toBitVec]
    simp only [Nat.reducePow]
    by_cases h : a.toNat < 128
    · rw [if_pos h, if_pos (by omega)]
    · rw [if_neg h, if_neg (by omega)]
      rfl
  have hvalue : (a.toBitVec ++ b.toBitVec ++ c.toBitVec ++ d.toBitVec).toInt =
      ((a.toBitVec.toInt * 256 + b.toNat) * 256 + c.toNat) * 256 + d.toNat := by
    simp only [BitVec.toInt_append, UInt8.toNat_toBitVec]
    simp
    omega
  rw [hvalue, hsign]
  simp only [statedLength]
  by_cases h : a.toNat < 128
  · rw [if_pos h, if_pos (by omega)]
    omega
  · rw [if_neg h, if_neg (by omega)]
    omega

/-- A length that is stated can be stated in no other way. -/
theorem header_of_statedLength {a b c d : UInt8} {length : Nat}
    (h : statedLength a b c d = length) :
    length ≤ greatestLength ∧ header length = [a, b, c, d] := by
  have ha := a.toNat_lt
  have hb := b.toNat_lt
  have hc := c.toNat_lt
  have hd := d.toNat_lt
  have hbounds : Word.bound31 = 2147483648 ∧ Word.bound32 = 4294967296 := ⟨rfl, rfl⟩
  have hword : length = ((a.toNat * 256 + b.toNat) * 256 + c.toNat) * 256 + d.toNat ∧
      length < Word.bound31 := by
    simp only [statedLength] at h
    split at h <;> omega
  obtain ⟨rfl, hlt⟩ := hword
  have hdigits : header (((a.toNat * 256 + b.toNat) * 256 + c.toNat) * 256 + d.toNat) =
      [UInt8.ofNat a.toNat, UInt8.ofNat b.toNat, UInt8.ofNat c.toNat, UInt8.ofNat d.toNat] := by
    simp only [header, Word.bound24, Word.bound16, Word.bound8, List.cons.injEq, and_true,
      ← UInt8.toNat_inj, UInt8.toNat_ofNat']
    omega
  refine ⟨Nat.le_sub_one_of_lt hlt, ?_⟩
  rw [hdigits, UInt8.ofNat_toNat, UInt8.ofNat_toNat, UInt8.ofNat_toNat, UInt8.ofNat_toNat]

/-! ### Writing -/

/-- A message has a frame exactly if its length can be stated. -/
theorem write_eq_ok_iff {body frame : Octets} :
    write body = .ok frame ↔ body.length ≤ greatestLength ∧ frame = header body.length ++ body := by
  unfold write
  split
  · rename_i hlength
    exact iff_of_false (by simp) fun h => absurd h.1 (Nat.not_le.2 hlength)
  · rename_i hlength
    rw [Except.ok.injEq]
    exact ⟨fun h => ⟨Nat.le_of_not_lt hlength, h.symm⟩, fun h => h.2.symm⟩

/-- A message that is short enough has a frame. -/
theorem write_of_le {body : Octets} (h : body.length ≤ greatestLength) :
    write body = .ok (header body.length ++ body) :=
  write_eq_ok_iff.2 ⟨h, rfl⟩

theorem standardLimit_le_greatestLength : standardLimit ≤ greatestLength := by decide

/-- A message that is admitted where no tighter limit is set has a frame. -/
theorem write_of_le_standardLimit {body : Octets} (h : body.length ≤ standardLimit) :
    write body = .ok (header body.length ++ body) :=
  write_of_le (Nat.le_trans h standardLimit_le_greatestLength)

theorem length_of_write {body frame : Octets} (h : write body = .ok frame) :
    frame.length = headerSize + body.length := by
  rw [(write_eq_ok_iff.1 h).2, List.length_append, length_header]

/-- Messages with the same frame are the same. -/
theorem write_injective {body other frame : Octets} (h : write body = .ok frame)
    (hother : write other = .ok frame) : body = other := by
  have hlength : body.length = other.length := by
    have htotal := (length_of_write h).symm.trans (length_of_write hother)
    omega
  have hframes := (write_eq_ok_iff.1 h).2.symm.trans (write_eq_ok_iff.1 hother).2
  rw [hlength] at hframes
  exact List.append_cancel_left hframes

/-! ### Reading -/

section

variable {limit : Nat} {octets : Octets}

/-- Fewer octets than those of a length are not enough. -/
theorem read_of_short (h : octets.length < headerSize) :
    read limit octets = .error (.truncated headerSize) := by
  unfold read
  split
  · simp only [List.length_cons, headerSize] at h
    omega
  · rfl

section

variable {a b c d : UInt8} {rest : Octets}

/-- A negative length is refused, whatever follows it. -/
theorem read_of_negative (h : statedLength a b c d < 0) :
    read limit (a :: b :: c :: d :: rest) = .error (.negativeLength (statedLength a b c d)) := by
  rw [read]
  split
  · rename_i n hstated
    rw [hstated]
  · rename_i length hstated
    rw [hstated] at h
    exact absurd h (by simp)

example : read 16 [0xff, 0xff, 0xff, 0xff] = .error (.negativeLength (-1)) := by cbv

/-- What is read where a length is stated that is not negative. -/
theorem read_of_stated {length : Nat} (h : statedLength a b c d = length) :
    read limit (a :: b :: c :: d :: rest) =
      if limit < length then .error (.tooLarge length limit) else takeBody length rest := by
  rw [read, h]

/-- A length that is too great is refused, whatever follows it. -/
theorem read_of_tooLarge {length : Nat} (h : statedLength a b c d = length)
    (hlimit : limit < length) :
    read limit (a :: b :: c :: d :: rest) = .error (.tooLarge length limit) := by
  rw [read_of_stated h, if_pos hlimit]

/-- A length that is allowed is not enough by itself. -/
theorem read_of_truncated {length : Nat} (h : statedLength a b c d = length)
    (hlimit : length ≤ limit) (hrest : rest.length < length) :
    read limit (a :: b :: c :: d :: rest) = .error (.truncated length) := by
  have htake : (rest.take length).length < length := by
    rw [List.length_take]
    omega
  rw [read_of_stated h, if_neg (Nat.not_lt.2 hlimit), takeBody, if_pos htake]

/-- A length that is allowed is followed by a message of that length. -/
theorem read_of_complete {length : Nat} (h : statedLength a b c d = length)
    (hlimit : length ≤ limit) (hrest : length ≤ rest.length) :
    read limit (a :: b :: c :: d :: rest) = .ok (rest.take length, rest.drop length) := by
  have htake : ¬ (rest.take length).length < length := by
    rw [List.length_take]
    omega
  rw [read_of_stated h, if_neg (Nat.not_lt.2 hlimit), takeBody, if_neg htake]

end

/-- Reading succeeds exactly where four octets state a length that is allowed and as many octets
follow as they state. -/
theorem exists_read_eq_ok_iff :
    (∃ message, read limit octets = .ok message) ↔
      ∃ a b c d rest, octets = a :: b :: c :: d :: rest ∧
        ∃ length : Nat, statedLength a b c d = length ∧ length ≤ limit ∧ length ≤ rest.length := by
  constructor
  · rintro ⟨message, hread⟩
    match octets, hread with
    | a :: b :: c :: d :: rest, hread =>
      refine ⟨a, b, c, d, rest, rfl, ?_⟩
      obtain ⟨length, hstated⟩ | ⟨n, hnegative⟩ : (∃ length : Nat, statedLength a b c d = length) ∨
          ∃ n : Nat, statedLength a b c d = -(n + 1 : Nat) := by
        cases statedLength a b c d with
        | ofNat length => exact Or.inl ⟨length, rfl⟩
        | negSucc n => exact Or.inr ⟨n, rfl⟩
      · rcases Nat.lt_or_ge limit length with htooLarge | hlimit
        · rw [read_of_tooLarge hstated htooLarge] at hread
          cases hread
        rcases Nat.lt_or_ge rest.length length with hshort | hrest
        · rw [read_of_truncated hstated hlimit hshort] at hread
          cases hread
        exact ⟨length, hstated, hlimit, hrest⟩
      · rw [read_of_negative (by omega)] at hread
        cases hread
  · rintro ⟨a, b, c, d, rest, rfl, length, hstated, hlimit, hrest⟩
    exact ⟨_, read_of_complete hstated hlimit hrest⟩

/-- A message is read together with a rest exactly if its frame stands in front of that rest. -/
theorem read_eq_ok_iff {body rest : Octets} :
    read limit octets = .ok (body, rest) ↔
      body.length ≤ limit ∧ ∃ frame, write body = .ok frame ∧ octets = frame ++ rest := by
  constructor
  · intro hread
    obtain ⟨a, b, c, d, tail, rfl, length, hstated, hlimit, htail⟩ :=
      exists_read_eq_ok_iff.1 ⟨_, hread⟩
    rw [read_of_complete hstated hlimit htail] at hread
    cases hread
    obtain ⟨hlength, hheader⟩ := header_of_statedLength hstated
    have hbody : (tail.take length).length = length := List.length_take_of_le htail
    refine ⟨Nat.le_trans (Nat.le_of_eq hbody) hlimit, _, write_of_le (by omega), ?_⟩
    rw [hbody, hheader, List.append_assoc, List.take_append_drop]
    rfl
  · rintro ⟨hlimit, frame, hframe, rfl⟩
    rw [read_write hframe, if_neg (Nat.not_lt.2 hlimit)]

/-- What a frame breaks off to is refused. -/
theorem read_of_broken {body frame : Octets} (hframe : write body = .ok frame)
    (hfront : octets <+: frame) (hne : octets ≠ frame) :
    read limit octets = .error
      (if octets.length < headerSize then .truncated headerSize
        else if limit < body.length then .tooLarge body.length limit
        else .truncated body.length) := by
  by_cases hshort : octets.length < headerSize
  · rw [if_pos hshort, read_of_short hshort]
  obtain ⟨missing, hmissing⟩ := hfront
  obtain ⟨hlength, rfl⟩ := write_eq_ok_iff.1 hframe
  have hmissing_ne : missing ≠ [] := by
    rintro rfl
    exact hne ((List.append_nil octets).symm.trans hmissing)
  have hpositive := List.length_pos_iff.2 hmissing_ne
  have htotal := congrArg List.length hmissing
  rw [List.length_append, List.length_append, length_header] at htotal
  rw [if_neg hshort]
  -- the header is whole, so that only octets of the message are missing
  have hdrop : octets.take headerSize = header body.length := by
    have htake := congrArg (List.take headerSize) hmissing
    rwa [List.take_append_of_le_length (Nat.le_of_not_lt hshort), List.take_left'
      (length_header _)] at htake
  obtain ⟨tail, rfl⟩ : ∃ tail, octets = header body.length ++ tail :=
    ⟨octets.drop headerSize, by rw [← hdrop, List.take_append_drop]⟩
  have htail : tail.length < body.length := by
    rw [List.length_append, length_header] at htotal
    omega
  have hstated := statedLength_header hlength
  by_cases hlimit : limit < body.length
  · rw [if_pos hlimit]
    exact read_of_tooLarge hstated hlimit
  · rw [if_neg hlimit]
    exact read_of_truncated hstated (Nat.le_of_not_lt hlimit) htail

end

/-! ### Texts -/

section

variable {limit : Nat} {octets : Octets}

theorem readText_of_error {error : FrameError} (h : read limit octets = .error error) :
    readText limit octets = .error error := by
  rw [readText, h]

/-- A frame that is read has the text of its body, if it is one. -/
theorem readText_of_ok {body rest : Octets} (h : read limit octets = .ok (body, rest)) :
    readText limit octets =
      match decode body with
      | .ok text => .ok (text, rest)
      | .error fault => .error (.notText fault) := by
  cases hbody : decode body with
  | error fault => simp only [readText, h, hbody]
  | ok text => simp only [readText, h, hbody]

/-- What was written as the frame of a text is read back, or refused for its length. -/
theorem readText_write {text : String} {frame : Octets} (hframe : write (encode text) = .ok frame)
    (limit : Nat) (rest : Octets) :
    readText limit (frame ++ rest) =
      if limit < (encode text).length then .error (.tooLarge (encode text).length limit)
      else .ok (text, rest) := by
  rw [readText, read_write hframe]
  by_cases hlimit : limit < (encode text).length
  · rw [if_pos hlimit, if_pos hlimit]
  · rw [if_neg hlimit, if_neg hlimit]
    simp only [decode_encode]

/-- A text that is admitted is read back from its frame. -/
theorem readText_write_of_le {text : String} {frame : Octets}
    (hframe : write (encode text) = .ok frame) (hlimit : (encode text).length ≤ limit)
    (rest : Octets) : readText limit (frame ++ rest) = .ok (text, rest) := by
  rw [readText_write hframe, if_neg (Nat.not_lt.2 hlimit)]

/-- A text is read exactly where its octets are. -/
theorem readText_eq_ok_iff {text : String} {rest : Octets} :
    readText limit octets = .ok (text, rest) ↔ read limit octets = .ok (encode text, rest) := by
  cases hread : read limit octets with
  | error error =>
    rw [readText_of_error hread]
    exact iff_of_false (by simp) (by simp)
  | ok message =>
    obtain ⟨body, after⟩ := message
    rw [readText_of_ok hread, Except.ok.injEq, Prod.mk.injEq, ← decode_eq_ok_iff]
    cases hbody : decode body with
    | error fault => exact iff_of_false (by simp) (by simp)
    | ok other => simp only [Except.ok.injEq, Prod.mk.injEq]

/-- A text is read exactly where a message is whose octets are well-formed. -/
theorem exists_readText_eq_ok_iff :
    (∃ message, readText limit octets = .ok message) ↔
      ∃ body rest, read limit octets = .ok (body, rest) ∧ body.toByteArray.IsValidUTF8 := by
  constructor
  · rintro ⟨⟨text, rest⟩, hread⟩
    refine ⟨encode text, rest, readText_eq_ok_iff.1 hread, ?_⟩
    exact isValidUTF8_iff.2 ⟨text, decode_encode text⟩
  · rintro ⟨body, rest, hread, hvalid⟩
    obtain ⟨text, htext⟩ := isValidUTF8_iff.1 hvalid
    obtain rfl := decode_eq_ok_iff.1 htext
    exact ⟨(text, rest), readText_eq_ok_iff.2 hread⟩

end

/-! ### Many messages -/

/-- The frames of messages, one after another. -/
def writeMany : List Octets → Except FrameError Octets
  | [] => .ok []
  | body :: bodies =>
    match write body, writeMany bodies with
    | .ok frame, .ok frames => .ok (frame ++ frames)
    | .error error, _ => .error error
    | .ok _, .error error => .error error

/-- The first `count` messages of what has arrived, and the rest. -/
def readMany (limit : Nat) : Nat → Octets → Except FrameError (List Octets × Octets)
  | 0, octets => .ok ([], octets)
  | count + 1, octets =>
    match read limit octets with
    | .error error => .error error
    | .ok (body, octets) =>
      match readMany limit count octets with
      | .error error => .error error
      | .ok (bodies, rest) => .ok (body :: bodies, rest)

/-- Frames are written one after the other. -/
theorem writeMany_cons_eq_ok_iff {body : Octets} {bodies : List Octets} {frames : Octets} :
    writeMany (body :: bodies) = .ok frames ↔
      ∃ first others, write body = .ok first ∧ writeMany bodies = .ok others ∧
        frames = first ++ others := by
  rw [writeMany]
  cases hfirst : write body with
  | error error => simp
  | ok first =>
    cases hothers : writeMany bodies with
    | error error => simp
    | ok others => simp [eq_comm]

/-- Frames are read one after the other. -/
theorem readMany_succ_eq_ok_iff {limit count : Nat} {octets : Octets} {bodies : List Octets}
    {rest : Octets} :
    readMany limit (count + 1) octets = .ok (bodies, rest) ↔
      ∃ body others between, bodies = body :: others ∧
        read limit octets = .ok (body, between) ∧
        readMany limit count between = .ok (others, rest) := by
  rw [readMany]
  cases hread : read limit octets with
  | error error => simp
  | ok message =>
    obtain ⟨body, between⟩ := message
    simp only
    constructor
    · intro h
      cases hothers : readMany limit count between with
      | error error =>
        rw [hothers] at h
        cases h
      | ok others =>
        rw [hothers] at h
        cases h
        exact ⟨body, _, between, rfl, rfl, hothers⟩
    · rintro ⟨_, others, _, rfl, hmessage, hothers⟩
      cases hmessage
      rw [hothers]

/-- Messages are read together with a rest exactly if their frames stand in front of that rest. -/
theorem readMany_eq_ok_iff {limit count : Nat} {octets : Octets} {bodies : List Octets}
    {rest : Octets} :
    readMany limit count octets = .ok (bodies, rest) ↔
      bodies.length = count ∧ (∀ body ∈ bodies, body.length ≤ limit) ∧
        ∃ frames, writeMany bodies = .ok frames ∧ octets = frames ++ rest := by
  induction count generalizing octets bodies with
  | zero =>
    rw [readMany, Except.ok.injEq, Prod.mk.injEq]
    constructor
    · rintro ⟨rfl, rfl⟩
      exact ⟨rfl, by simp, [], rfl, rfl⟩
    · rintro ⟨hlength, -, frames, hframes, rfl⟩
      obtain rfl := List.length_eq_zero_iff.1 hlength
      cases hframes
      exact ⟨rfl, rfl⟩
  | succ count ih =>
    rw [readMany_succ_eq_ok_iff]
    constructor
    · rintro ⟨body, others, between, rfl, hread, hothers⟩
      obtain ⟨hlimit, frame, hframe, rfl⟩ := read_eq_ok_iff.1 hread
      obtain ⟨hlength, hlimits, frames, hframes, rfl⟩ := ih.1 hothers
      refine ⟨congrArg (· + 1) hlength, List.forall_mem_cons.2 ⟨hlimit, hlimits⟩, frame ++ frames,
        writeMany_cons_eq_ok_iff.2 ⟨frame, frames, hframe, hframes, rfl⟩, ?_⟩
      rw [List.append_assoc]
    · rintro ⟨hlength, hlimits, frames, hframes, rfl⟩
      obtain ⟨body, others, rfl⟩ := List.exists_cons_of_length_eq_add_one hlength
      obtain ⟨hlimit, hlimits⟩ := List.forall_mem_cons.1 hlimits
      obtain ⟨first, rest', hfirst, hothers, rfl⟩ := writeMany_cons_eq_ok_iff.1 hframes
      refine ⟨body, others, rest' ++ rest, rfl, ?_, ?_⟩
      · exact read_eq_ok_iff.2 ⟨hlimit, first, hfirst, List.append_assoc ..⟩
      · exact ih.2 ⟨Nat.succ.inj hlength, hlimits, rest', hothers, rfl⟩

/-- Messages that are short enough have frames. -/
theorem exists_writeMany {bodies : List Octets}
    (h : ∀ body ∈ bodies, body.length ≤ greatestLength) :
    ∃ frames, writeMany bodies = .ok frames := by
  induction bodies with
  | nil => exact ⟨[], rfl⟩
  | cons body bodies ih =>
    obtain ⟨hbody, hbodies⟩ := List.forall_mem_cons.1 h
    obtain ⟨frames, hframes⟩ := ih hbodies
    exact ⟨_, writeMany_cons_eq_ok_iff.2 ⟨_, frames, write_of_le hbody, hframes, rfl⟩⟩

/-! ### The codec -/

/-- Reading takes from the front of any octets what writing puts there, and nothing else.

* Messages whose lengths are allowed and can be stated are written one after another, and read
  one by one, in their order, up to what follows them.
* A message is read exactly if four octets state, as a signed integer with the highest octet first,
  a length that is allowed and not negative and at least so many octets follow.  Written again, it
  gives the octets that were taken.
* Otherwise the first of these things that is wrong is reported, the octets that follow the length
  being looked at last.  What a frame breaks off to is refused.
* A text is read exactly if a message is and its octets are well-formed, and it is the text with
  these octets. -/
theorem read_inverts_write (limit : Nat) :
    (∀ bodies : List Octets, (∀ body ∈ bodies, body.length ≤ min limit greatestLength) →
      ∃ frames, writeMany bodies = .ok frames ∧
        ∀ rest, readMany limit bodies.length (frames ++ rest) = .ok (bodies, rest)) ∧
    (∀ a b c d, statedLength a b c d =
      (a.toBitVec ++ b.toBitVec ++ c.toBitVec ++ d.toBitVec).toInt) ∧
    (∀ octets, (∃ message, read limit octets = .ok message) ↔
      ∃ a b c d rest, octets = a :: b :: c :: d :: rest ∧
        0 ≤ statedLength a b c d ∧ statedLength a b c d ≤ limit ∧
          statedLength a b c d ≤ rest.length) ∧
    (∀ octets body rest, read limit octets = .ok (body, rest) →
      write body = .ok (octets.take (headerSize + body.length)) ∧
        rest = octets.drop (headerSize + body.length)) ∧
    (∀ octets : Octets, octets.length < headerSize →
      read limit octets = .error (.truncated headerSize)) ∧
    (∀ a b c d rest, statedLength a b c d < 0 →
      read limit (a :: b :: c :: d :: rest) = .error (.negativeLength (statedLength a b c d))) ∧
    (∀ a b c d rest, ∀ length : Nat, statedLength a b c d = length →
      (limit < length →
        read limit (a :: b :: c :: d :: rest) = .error (.tooLarge length limit)) ∧
      (length ≤ limit → rest.length < length →
        read limit (a :: b :: c :: d :: rest) = .error (.truncated length))) ∧
    (∀ octets body frame, write body = .ok frame → octets <+: frame → octets ≠ frame →
      read limit octets = .error
        (if octets.length < headerSize then .truncated headerSize
          else if limit < body.length then .tooLarge body.length limit
          else .truncated body.length)) ∧
    (∀ octets, (∃ message, readText limit octets = .ok message) ↔
      ∃ body rest, read limit octets = .ok (body, rest) ∧ body.toByteArray.IsValidUTF8) ∧
    (∀ octets text rest, readText limit octets = .ok (text, rest) ↔
      read limit octets = .ok (encode text, rest)) ∧
    (∀ octets error, read limit octets = .error error → readText limit octets = .error error) := by
  refine ⟨fun bodies hbodies => ?_, statedLength_eq_toInt, fun octets => ?_,
    fun octets body rest hread => ?_, fun _ => read_of_short, fun _ _ _ _ _ => read_of_negative,
    fun _ _ _ _ _ _ hstated => ⟨read_of_tooLarge hstated, read_of_truncated hstated⟩,
    fun _ _ _ => read_of_broken, fun _ => exists_readText_eq_ok_iff,
    fun _ _ _ => readText_eq_ok_iff, fun _ _ => readText_of_error⟩
  · have hlimits : ∀ body ∈ bodies, body.length ≤ limit := fun body hbody =>
      Nat.le_trans (hbodies body hbody) (Nat.min_le_left ..)
    obtain ⟨frames, hframes⟩ := exists_writeMany fun body hbody =>
      Nat.le_trans (hbodies body hbody) (Nat.min_le_right ..)
    exact ⟨frames, hframes, fun rest =>
      readMany_eq_ok_iff.2 ⟨rfl, hlimits, frames, hframes, rfl⟩⟩
  · rw [exists_read_eq_ok_iff]
    constructor
    · rintro ⟨a, b, c, d, rest, rfl, length, hstated, hlimit, hrest⟩
      exact ⟨a, b, c, d, rest, rfl, by omega, by omega, by omega⟩
    · rintro ⟨a, b, c, d, rest, rfl, hnonneg, hlimit, hrest⟩
      obtain ⟨length, hstated⟩ := Int.eq_ofNat_of_zero_le hnonneg
      exact ⟨a, b, c, d, rest, rfl, length, hstated, by omega, by omega⟩
  · obtain ⟨-, frame, hframe, rfl⟩ := read_eq_ok_iff.1 hread
    rw [← length_of_write hframe, List.take_left, List.drop_left]
    exact ⟨hframe, rfl⟩

end EvidenceSynthesis.Frame
