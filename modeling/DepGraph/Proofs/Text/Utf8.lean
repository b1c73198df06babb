import Mathlib.Data.List.Basic
import DepGraph.Text.Utf8

/-!
# What UTF-8 decoding gives back

The first piece of some bytes is a character exactly if they start with the encoding of one. So what
was encoded is read back, whatever follows it, and nothing else is decoded without loss. A lossy text
keeps the ASCII characters where they are, because a byte of ASCII is part of no other character: it
can be cut at them before or after it is decoded.

- `Utf8Sequence`: the well-formed sequences; `firstPiece_eq_char_iff`: pieces that are characters.
- `flatMap_bytes_pieces`: no byte is lost in the pieces.
- `decode_eq_ok_iff`: strict decoding undoes encoding.
- `decodeLossy_encode_append`, `encode_decodeLossy`: so does lossy decoding, unless it shows a
  replacement character.
- `decodeLossy_append_cons`: a lossy text is cut where the bytes are.
-/

namespace DepGraph.Text

/-! ## Well-formed sequences -/

/-- A well-formed sequence of bytes, and the code point for which it stands. -/
inductive Utf8Sequence : List UInt8 → Nat → Prop
  | one {a : UInt8} (ha : a.toNat < 0x80) : Utf8Sequence [a] a.toNat
  | two {a b : UInt8} (ha : 0xc2 ≤ a.toNat ∧ a.toNat ≤ 0xdf) (hb : isContinuation b = true) :
    Utf8Sequence [a, b] (a.toNat % 32 * 64 + payload b)
  | three {a b c : UInt8} (ha : 0xe0 ≤ a.toNat ∧ a.toNat ≤ 0xef) (hb : isSecondByte a b = true)
      (hc : isContinuation c = true) :
    Utf8Sequence [a, b, c] ((a.toNat % 16 * 64 + payload b) * 64 + payload c)
  | four {a b c d : UInt8} (ha : 0xf0 ≤ a.toNat ∧ a.toNat ≤ 0xf4) (hb : isSecondByte a b = true)
      (hc : isContinuation c = true) (hd : isContinuation d = true) :
    Utf8Sequence [a, b, c, d]
      (((a.toNat % 8 * 64 + payload b) * 64 + payload c) * 64 + payload d)

section Bytes

variable {a b low high : UInt8}

theorem between_iff :
    (low ≤ a && a ≤ high) = true ↔ low.toNat ≤ a.toNat ∧ a.toNat ≤ high.toNat := by
  simp [UInt8.le_iff_toNat_le]

theorem isContinuation_iff : isContinuation b = true ↔ 0x80 ≤ b.toNat ∧ b.toNat ≤ 0xbf :=
  between_iff

theorem isSecondByte_iff : isSecondByte a b = true ↔
    (0x80 ≤ b.toNat ∧ b.toNat ≤ 0xbf) ∧
      (a.toNat = 0xe0 → 0xa0 ≤ b.toNat) ∧ (a.toNat = 0xed → b.toNat ≤ 0x9f) ∧
        (a.toNat = 0xf0 → 0x90 ≤ b.toNat) ∧ (a.toNat = 0xf4 → b.toNat ≤ 0x8f) := by
  unfold isSecondByte secondByteRange
  simp only [between_iff, beq_iff_eq, ← UInt8.toNat_inj, UInt8.reduceToNat]
  split
  · simp only [UInt8.reduceToNat]; omega
  split
  · simp only [UInt8.reduceToNat]; omega
  split
  · simp only [UInt8.reduceToNat]; omega
  split <;> simp only [UInt8.reduceToNat] <;> omega

theorem ofNat_eq_iff {n : Nat} : UInt8.ofNat n = a ↔ n % 256 = a.toNat := by
  rw [← UInt8.toNat_inj, UInt8.toNat_ofNat']

end Bytes

namespace Utf8Sequence

variable {bytes : List UInt8} {n : Nat}

theorem isValidChar (h : Utf8Sequence bytes n) : n.isValidChar := by
  unfold Nat.isValidChar
  cases h with
  | one ha => omega
  | two ha hb => unfold payload; omega
  | three ha hb hc =>
    rw [isSecondByte_iff] at hb
    unfold payload
    omega
  | four ha hb hc hd =>
    rw [isSecondByte_iff] at hb
    unfold payload
    omega

/-- No code point has another sequence than its encoding. -/
theorem eq_encode (h : Utf8Sequence bytes n) : bytes = String.utf8EncodeChar (Char.ofNat n) := by
  have hn : (Char.ofNat n).val.toNat = n := by
    rw [Char.ofNat, dif_pos h.isValidChar]
    rfl
  unfold String.utf8EncodeChar
  simp only [hn]
  cases h with
  | one ha =>
    rw [if_pos (by omega), UInt8.ofNat_toNat]
  | two ha hb =>
    rw [isContinuation_iff] at hb
    unfold payload
    rw [if_neg (by omega), if_pos (by omega)]
    simp only [List.cons.injEq, and_true, eq_comm (b := UInt8.ofNat _), ofNat_eq_iff]
    omega
  | three ha hb hc =>
    rw [isSecondByte_iff] at hb
    rw [isContinuation_iff] at hc
    unfold payload
    rw [if_neg (by omega), if_neg (by omega), if_pos (by omega)]
    simp only [List.cons.injEq, and_true, eq_comm (b := UInt8.ofNat _), ofNat_eq_iff]
    omega
  | four ha hb hc hd =>
    rw [isSecondByte_iff] at hb
    rw [isContinuation_iff] at hc hd
    unfold payload
    rw [if_neg (by omega), if_neg (by omega), if_neg (by omega)]
    simp only [List.cons.injEq, and_true, eq_comm (b := UInt8.ofNat _), ofNat_eq_iff]
    omega

end Utf8Sequence

/-- The encoding of a character is a sequence for it. -/
theorem utf8Sequence_encode (c : Char) : Utf8Sequence (String.utf8EncodeChar c) c.toNat := by
  have hvalid : c.toNat < 0xd800 ∨ 0xdfff < c.toNat ∧ c.toNat < 0x110000 := c.valid
  obtain ⟨n, hn⟩ : ∃ n, n = c.toNat := ⟨_, rfl⟩
  have hval : c.val.toNat = n := hn.symm
  unfold String.utf8EncodeChar
  simp only [hval]
  rw [← hn] at hvalid ⊢
  have hbyte : ∀ m : Nat, m < 256 → (UInt8.ofNat m).toNat = m := fun m hm => by
    rw [UInt8.toNat_ofNat', Nat.mod_eq_of_lt hm]
  split
  · have hone := @Utf8Sequence.one (.ofNat n) (by rw [hbyte n (by omega)]; omega)
    rwa [hbyte n (by omega)] at hone
  split
  · have htwo := @Utf8Sequence.two (.ofNat (n / 64 % 0x20 + 0xc0)) (.ofNat (n % 0x40 + 0x80))
      (by rw [UInt8.toNat_ofNat']; omega) (by rw [isContinuation_iff, UInt8.toNat_ofNat']; omega)
    convert htwo using 1
    unfold payload
    simp only [UInt8.toNat_ofNat']
    omega
  split
  · have hthree := @Utf8Sequence.three (.ofNat (n / 4096 % 0x10 + 0xe0))
      (.ofNat (n / 64 % 0x40 + 0x80)) (.ofNat (n % 0x40 + 0x80))
      (by rw [UInt8.toNat_ofNat']; omega)
      (by simp only [isSecondByte_iff, UInt8.toNat_ofNat']; omega)
      (by rw [isContinuation_iff, UInt8.toNat_ofNat']; omega)
    convert hthree using 1
    unfold payload
    simp only [UInt8.toNat_ofNat']
    omega
  · have hfour := @Utf8Sequence.four (.ofNat (n / 262144 % 0x08 + 0xf0))
      (.ofNat (n / 4096 % 0x40 + 0x80)) (.ofNat (n / 64 % 0x40 + 0x80))
      (.ofNat (n % 0x40 + 0x80))
      (by rw [UInt8.toNat_ofNat']; omega)
      (by simp only [isSecondByte_iff, UInt8.toNat_ofNat']; omega)
      (by rw [isContinuation_iff, UInt8.toNat_ofNat']; omega)
      (by rw [isContinuation_iff, UInt8.toNat_ofNat']; omega)
    convert hfour using 1
    unfold payload
    simp only [UInt8.toNat_ofNat']
    omega

/-! ## The first piece -/

section FirstPiece

variable {a : UInt8} {tail rest bytes : List UInt8} {n : Nat} {c : Char}

/-- A well-formed sequence is read as a character, whatever follows it. -/
theorem firstPiece_of_sequence (h : Utf8Sequence (a :: tail) n) (rest : List UInt8) :
    firstPiece a (tail ++ rest) = .char (a :: tail) (Char.ofNat n) := by
  unfold firstPiece
  simp only [between_iff, UInt8.lt_iff_toNat_lt, UInt8.reduceToNat]
  cases h with
  | one ha => exact if_pos ha
  | two ha hb =>
    rw [if_neg (by omega), if_pos ha]
    exact if_pos hb
  | three ha hb hc =>
    rw [if_neg (by omega), if_neg (by omega), if_pos ha]
    simp [hb, hc]
  | four ha hb hc hd =>
    rw [if_neg (by omega), if_neg (by omega), if_neg (by omega), if_pos ha]
    simp [hb, hc, hd]

/-- What is read as a character is a well-formed sequence. -/
theorem exists_sequence_of_firstPiece (h : firstPiece a rest = .char bytes c) :
    ∃ n, Utf8Sequence bytes n ∧ c = Char.ofNat n := by
  unfold firstPiece at h
  simp only [between_iff, UInt8.lt_iff_toNat_lt, UInt8.reduceToNat] at h
  -- one case for each number of bytes; where a byte is missing or ruled out, the piece is stray
  split at h
  · next ha =>
    cases h
    exact ⟨_, .one ha, rfl⟩
  split at h
  · next ha =>
    split at h
    · cases h
    split at h
    · next hb =>
      cases h
      exact ⟨_, .two ha hb, rfl⟩
    · cases h
  split at h
  · next ha =>
    split at h
    · cases h
    split at h
    · cases h
    next hb =>
    split at h
    · cases h
    split at h
    · next hc =>
      cases h
      exact ⟨_, .three ha (by simpa using hb) hc, rfl⟩
    · cases h
  split at h
  · next ha =>
    split at h
    · cases h
    split at h
    · cases h
    next hb =>
    split at h
    · cases h
    split at h
    · cases h
    next hc =>
    split at h
    · cases h
    split at h
    · next hd =>
      cases h
      exact ⟨_, .four ha (by simpa using hb) (by simpa using hc) hd, rfl⟩
    · cases h
  · cases h

/-- The first piece is a start of the bytes. -/
theorem exists_bytes_firstPiece (a : UInt8) (rest : List UInt8) :
    ∃ tail, (firstPiece a rest).bytes = a :: tail ∧ tail <+: rest := by
  unfold firstPiece
  repeat' split
  all_goals exact ⟨_, rfl, by simp⟩

/-- The first piece is a character exactly if the bytes start with its encoding. -/
theorem firstPiece_eq_char_iff :
    firstPiece a rest = .char bytes c ↔
      bytes = String.utf8EncodeChar c ∧ String.utf8EncodeChar c <+: a :: rest := by
  constructor
  · intro h
    obtain ⟨n, hsequence, rfl⟩ := exists_sequence_of_firstPiece h
    obtain ⟨tail, hbytes, hprefix⟩ := exists_bytes_firstPiece a rest
    rw [h] at hbytes
    rw [← hsequence.eq_encode]
    refine ⟨rfl, ?_⟩
    rw [show bytes = a :: tail from hbytes]
    exact (List.prefix_cons_inj a).mpr hprefix
  · rintro ⟨rfl, rest', hrest⟩
    have hsequence := utf8Sequence_encode c
    cases hbytes : String.utf8EncodeChar c with
    | nil => exact absurd hbytes (String.utf8EncodeChar_ne_nil)
    | cons b tail =>
      rw [hbytes, List.cons_append, List.cons.injEq] at hrest
      obtain ⟨rfl, rfl⟩ := hrest
      rw [hbytes] at hsequence
      rw [firstPiece_of_sequence hsequence, Char.ofNat_toNat]

/-- A byte of ASCII after the bytes at hand goes on with no character, like the end of the input. -/
theorem firstPiece_append_cons {b : UInt8} (hb : b.toNat < 0x80) (rest rest' : List UInt8) :
    (firstPiece a (rest ++ b :: rest')).bytes = (firstPiece a rest).bytes ∧
      (firstPiece a (rest ++ b :: rest')).shown = (firstPiece a rest).shown := by
  have hcontinuation : isContinuation b = false := by
    rw [Bool.eq_false_iff, ne_eq, isContinuation_iff]
    omega
  have hsecond : ∀ a, isSecondByte a b = false := by
    intro a
    rw [Bool.eq_false_iff, ne_eq, isSecondByte_iff]
    omega
  unfold firstPiece
  rcases rest with _ | ⟨c, _ | ⟨d, _ | ⟨e, rest⟩⟩⟩ <;>
    simp only [List.nil_append, List.cons_append, hcontinuation, hsecond, Bool.not_false,
      Bool.false_eq_true, if_false, if_true]
  all_goals
    repeat' split
    all_goals simp [Utf8Piece.bytes, Utf8Piece.shown]

end FirstPiece

/-! ## All pieces -/

section Pieces

theorem piecesFrom_eq_append (done : List Utf8Piece) (skip : Nat) (bytes : List UInt8) :
    piecesFrom done skip bytes = done.reverse ++ piecesFrom [] skip bytes := by
  induction bytes generalizing done skip with
  | nil => cases skip <;> simp [piecesFrom]
  | cons a rest ih =>
    cases skip with
    | succ skip => exact ih done skip
    | zero =>
      rw [piecesFrom, piecesFrom, ih, ih [_]]
      simp

theorem piecesFrom_skip (skip : Nat) (bytes : List UInt8) :
    piecesFrom [] skip bytes = pieces (bytes.drop skip) := by
  induction bytes generalizing skip with
  | nil => cases skip <;> rfl
  | cons a rest ih =>
    cases skip with
    | succ skip => exact ih skip
    | zero => rfl

/-- The first piece comes first, and the pieces of what is left follow. -/
theorem pieces_cons (a : UInt8) (rest : List UInt8) :
    pieces (a :: rest) = firstPiece a rest ::
      pieces (rest.drop ((firstPiece a rest).bytes.length - 1)) := by
  rw [pieces, piecesFrom, piecesFrom_eq_append, piecesFrom_skip]
  rfl

theorem length_bytes_firstPiece_le (a : UInt8) (rest : List UInt8) :
    (firstPiece a rest).bytes.length - 1 ≤ rest.length := by
  obtain ⟨tail, hbytes, hprefix⟩ := exists_bytes_firstPiece a rest
  rw [hbytes]
  exact hprefix.length_le

/-- What is left after a piece is shorter, so what holds of pieces is proved piece by piece. -/
theorem pieces_induction {motive : List UInt8 → Prop} (nil : motive [])
    (cons : ∀ a rest, motive (rest.drop ((firstPiece a rest).bytes.length - 1)) →
      motive (a :: rest)) (bytes : List UInt8) : motive bytes := by
  induction hlength : bytes.length using Nat.strongRecOn generalizing bytes with
  | ind length ih =>
    cases bytes with
    | nil => exact nil
    | cons a rest =>
      refine cons a rest (ih _ ?_ _ rfl)
      rw [List.length_cons] at hlength
      rw [List.length_drop]
      omega

/-- No byte is lost. -/
theorem flatMap_bytes_pieces (bytes : List UInt8) :
    (pieces bytes).flatMap Utf8Piece.bytes = bytes := by
  induction bytes using pieces_induction with
  | nil => rfl
  | cons a rest ih =>
    obtain ⟨tail, hbytes, rest', rfl⟩ := exists_bytes_firstPiece a rest
    rw [pieces_cons, List.flatMap_cons, ih, hbytes, List.cons_append, List.length_cons,
      Nat.add_sub_cancel, List.drop_left]

theorem pieces_encodeChar_append (c : Char) (rest : List UInt8) :
    pieces (String.utf8EncodeChar c ++ rest) =
      .char (String.utf8EncodeChar c) c :: pieces rest := by
  obtain ⟨a, tail, hbytes⟩ := List.exists_cons_of_ne_nil (String.utf8EncodeChar_ne_nil (c := c))
  have hfirst : firstPiece a (tail ++ rest) = .char (String.utf8EncodeChar c) c :=
    firstPiece_eq_char_iff.mpr ⟨rfl, rest, by rw [hbytes, List.cons_append]⟩
  conv_lhs => rw [hbytes, List.cons_append]
  rw [pieces_cons, hfirst, Utf8Piece.bytes, hbytes, List.length_cons, Nat.add_sub_cancel,
    List.drop_left]

/-- What was encoded is cut into its characters, whatever bytes follow it. -/
theorem pieces_encode_append (text : List Char) (rest : List UInt8) :
    pieces (encode text ++ rest) =
      text.map (fun c => .char (String.utf8EncodeChar c) c) ++ pieces rest := by
  induction text with
  | nil => rfl
  | cons c text ih =>
    rw [encode, List.flatMap_cons, List.append_assoc, pieces_encodeChar_append, List.map_cons]
    exact congrArg (_ :: ·) ih

/-- Every piece that is a character is its encoding. -/
theorem eq_encodeChar_of_mem_pieces {bytes bytes' : List UInt8} {c : Char}
    (h : .char bytes' c ∈ pieces bytes) : bytes' = String.utf8EncodeChar c := by
  induction bytes using pieces_induction with
  | nil => exact absurd h List.not_mem_nil
  | cons a rest ih =>
    rw [pieces_cons] at h
    rcases List.mem_cons.mp h with hfirst | hrest
    · exact (firstPiece_eq_char_iff.mp hfirst.symm).1
    · exact ih hrest

end Pieces

/-! ## Decoding -/

theorem encode_append (text text' : List Char) :
    encode (text ++ text') = encode text ++ encode text' :=
  List.flatMap_append

/-- What was encoded is shown as it was, whatever bytes follow it. -/
theorem decodeLossy_encode_append (text : List Char) (rest : List UInt8) :
    decodeLossy (encode text ++ rest) = text ++ decodeLossy rest := by
  rw [decodeLossy, pieces_encode_append, List.map_append, List.map_map]
  exact congrArg (· ++ _) (List.map_id text)

theorem decodeLossy_encode (text : List Char) : decodeLossy (encode text) = text := by
  have h := decodeLossy_encode_append text []
  rwa [List.append_nil, show decodeLossy [] = [] from rfl, List.append_nil] at h

theorem encode_injective : Function.Injective encode := by
  intro text text' h
  rw [← decodeLossy_encode text, h, decodeLossy_encode]

/-- Nothing is lost where no replacement character is shown. -/
theorem encode_decodeLossy {bytes : List UInt8} (h : replacement ∉ decodeLossy bytes) :
    encode (decodeLossy bytes) = bytes := by
  have hbytes : ∀ piece ∈ pieces bytes, String.utf8EncodeChar piece.shown = piece.bytes := by
    intro piece hpiece
    cases piece with
    | char bytes' c => exact (eq_encodeChar_of_mem_pieces hpiece).symm
    | stray => exact absurd (List.mem_map_of_mem (f := Utf8Piece.shown) hpiece) h
  conv_rhs => rw [← flatMap_bytes_pieces bytes]
  rw [encode, decodeLossy, List.flatMap_map]
  exact List.flatMap_congr hbytes

/-- Before and after a byte of ASCII the bytes are decoded for themselves. -/
theorem decodeLossy_append_cons {b : UInt8} (hb : b.toNat < 0x80) (front rest : List UInt8) :
    decodeLossy (front ++ b :: rest) =
      decodeLossy front ++ Char.ofNat b.toNat :: decodeLossy rest := by
  induction front using pieces_induction with
  | nil =>
    have hfirst : firstPiece b rest = .char [b] (Char.ofNat b.toNat) :=
      firstPiece_of_sequence (.one hb) rest
    rw [List.nil_append, decodeLossy, pieces_cons, hfirst]
    rfl
  | cons a front ih =>
    obtain ⟨hbytes, hshown⟩ := firstPiece_append_cons (a := a) hb front rest
    rw [List.cons_append, decodeLossy, decodeLossy, pieces_cons, pieces_cons a front, List.map_cons,
      List.map_cons, hbytes, hshown,
      List.drop_append_of_le_length (length_bytes_firstPiece_le a front)]
    exact congrArg (_ :: ·) ih

/-- A character that is shown and replaces nothing is there. -/
theorem encodeChar_subset_of_mem_decodeLossy {bytes : List UInt8} {c : Char}
    (h : c ∈ decodeLossy bytes) (hc : c ≠ replacement) : String.utf8EncodeChar c ⊆ bytes := by
  obtain ⟨piece, hpiece, rfl⟩ := List.mem_map.mp h
  cases piece with
  | char bytes' c =>
    intro b hb
    rw [← flatMap_bytes_pieces bytes]
    exact List.mem_flatMap.mpr ⟨_, hpiece, eq_encodeChar_of_mem_pieces hpiece ▸ hb⟩
  | stray => exact absurd rfl hc

/-- A byte of ASCII that is there is shown. -/
theorem mem_decodeLossy_of_mem {bytes : List UInt8} {b : UInt8} (hb : b.toNat < 0x80)
    (h : b ∈ bytes) : Char.ofNat b.toNat ∈ decodeLossy bytes := by
  obtain ⟨front, rest, rfl⟩ := List.append_of_mem h
  rw [decodeLossy_append_cons hb]
  exact List.mem_append_right _ List.mem_cons_self

/-! ## Strict decoding -/

theorem textFrom_eq_ok_iff {pieces : List Utf8Piece} {offset : Nat} {done text : List Char} :
    textFrom offset done pieces = .ok text ↔
      (∀ piece ∈ pieces, ∃ bytes c, piece = .char bytes c) ∧
        text = done.reverse ++ pieces.map Utf8Piece.shown := by
  induction pieces generalizing offset done with
  | nil => simp [textFrom, eq_comm]
  | cons piece pieces ih =>
    cases piece with
    | char bytes c =>
      rw [textFrom, ih]
      simp [Utf8Piece.shown]
    | stray bytes isCut => cases isCut <;> simp [textFrom]

/-- A text is decoded from its encoding, and from nothing else. -/
theorem decode_eq_ok_iff {bytes : List UInt8} {text : List Char} :
    decode bytes = .ok text ↔ bytes = encode text := by
  rw [decode, textFrom_eq_ok_iff]
  constructor
  · rintro ⟨hall, rfl⟩
    rw [List.reverse_nil, List.nil_append, encode, List.flatMap_map]
    conv_lhs => rw [← flatMap_bytes_pieces bytes]
    refine List.flatMap_congr fun piece hpiece => ?_
    obtain ⟨bytes', c, rfl⟩ := hall piece hpiece
    exact eq_encodeChar_of_mem_pieces hpiece
  · rintro rfl
    refine ⟨fun piece hpiece => ?_, (decodeLossy_encode text).symm⟩
    have hpieces := pieces_encode_append text []
    rw [List.append_nil, show pieces [] = [] from rfl, List.append_nil] at hpieces
    rw [hpieces] at hpiece
    obtain ⟨c, -, rfl⟩ := List.mem_map.mp hpiece
    exact ⟨_, c, rfl⟩

end DepGraph.Text
