/-!
# UTF-8

Bytes are cut into pieces, each of which is a character or a stretch of stray bytes that belong to
none. A strict decoder gives up at the first stray bytes: `Utf8Error` says where they are, and
whether the next byte rules them out or the input is cut off there. A lossy decoder shows each
stretch as one replacement character.
-/

namespace DepGraph.Text

/-- A stretch of bytes that is taken as one. -/
inductive Utf8Piece where
  | char (bytes : List UInt8) (c : Char)
  /-- A byte that starts no character, or the start of one that does not go on. -/
  | stray (bytes : List UInt8) (isCut : Bool)
  deriving Repr, DecidableEq

/-- The bytes of the piece. -/
def Utf8Piece.bytes : Utf8Piece → List UInt8
  | .char bytes _ => bytes
  | .stray bytes _ => bytes

/-! ## Cutting bytes into pieces -/

/-- Is `b` a continuation byte? -/
def isContinuation (b : UInt8) : Bool :=
  0x80 ≤ b && b ≤ 0xbf

/-- The range of the second byte after the lead byte `lead` of three or four bytes. It excludes
overlong forms, surrogates and code points beyond the last. -/
def secondByteRange (lead : UInt8) : UInt8 × UInt8 :=
  if lead == 0xe0 then (0xa0, 0xbf)
  else if lead == 0xed then (0x80, 0x9f)
  else if lead == 0xf0 then (0x90, 0xbf)
  else if lead == 0xf4 then (0x80, 0x8f)
  else (0x80, 0xbf)

/-- May `b` follow the lead byte `lead` of three or four bytes? -/
def isSecondByte (lead b : UInt8) : Bool :=
  (secondByteRange lead).1 ≤ b && b ≤ (secondByteRange lead).2

/-- The payload of a continuation byte. -/
def payload (b : UInt8) : Nat :=
  b.toNat % 64

/-- The first piece of the bytes `a` and `rest`. -/
def firstPiece (a : UInt8) (rest : List UInt8) : Utf8Piece :=
  if a < 0x80 then .char [a] (Char.ofNat a.toNat)
  else if 0xc2 ≤ a && a ≤ 0xdf then
    match rest with
    | [] => .stray [a] true
    | b :: _ =>
      if isContinuation b then .char [a, b] (Char.ofNat (a.toNat % 32 * 64 + payload b))
      else .stray [a] false
  else if 0xe0 ≤ a && a ≤ 0xef then
    match rest with
    | [] => .stray [a] true
    | b :: rest =>
      if !isSecondByte a b then .stray [a] false
      else
        match rest with
        | [] => .stray [a, b] true
        | c :: _ =>
          if isContinuation c then
            .char [a, b, c] (Char.ofNat ((a.toNat % 16 * 64 + payload b) * 64 + payload c))
          else .stray [a, b] false
  else if 0xf0 ≤ a && a ≤ 0xf4 then
    match rest with
    | [] => .stray [a] true
    | b :: rest =>
      if !isSecondByte a b then .stray [a] false
      else
        match rest with
        | [] => .stray [a, b] true
        | c :: rest =>
          if !isContinuation c then .stray [a, b] false
          else
            match rest with
            | [] => .stray [a, b, c] true
            | d :: _ =>
              if isContinuation d then
                .char [a, b, c, d]
                  (Char.ofNat (((a.toNat % 8 * 64 + payload b) * 64 + payload c) * 64 + payload d))
              else .stray [a, b, c] false
  else .stray [a] false

/-- The pieces of bytes after those of `done`, which stand last one first. The first `skip` bytes
belong to the last of them. -/
def piecesFrom (done : List Utf8Piece) : (skip : Nat) → List UInt8 → List Utf8Piece
  | _, [] => done.reverse
  | skip + 1, _ :: rest => piecesFrom done skip rest
  | 0, a :: rest =>
    let piece := firstPiece a rest
    piecesFrom (piece :: done) (piece.bytes.length - 1) rest

/-- The pieces of bytes. -/
def pieces (bytes : List UInt8) : List Utf8Piece :=
  piecesFrom [] 0 bytes

/-! ## Decoding -/

/-- Why bytes are not UTF-8; `offset` is the length of the longest valid start. -/
inductive Utf8Error where
  | invalid (length offset : Nat)
  | incomplete (offset : Nat)
  deriving Repr, DecidableEq

/-- The wording of the error. -/
def Utf8Error.message : Utf8Error → String
  | .invalid length offset => s!"invalid utf-8 sequence of {length} bytes from index {offset}"
  | .incomplete offset => s!"incomplete utf-8 byte sequence from index {offset}"

/-- The text of pieces from byte `offset` on, with the characters before it, last one first. -/
def textFrom (offset : Nat) (done : List Char) : List Utf8Piece → Except Utf8Error (List Char)
  | [] => .ok done.reverse
  | .char bytes c :: rest => textFrom (offset + bytes.length) (c :: done) rest
  | .stray _ true :: _ => .error (.incomplete offset)
  | .stray bytes false :: _ => .error (.invalid bytes.length offset)

/-- The text that the bytes encode. -/
def decode (bytes : List UInt8) : Except Utf8Error (List Char) :=
  textFrom 0 [] (pieces bytes)

/-- What is shown of bytes that are no character. -/
def replacement : Char :=
  Char.ofNat 0xfffd

/-- The character as which a piece is shown. -/
def Utf8Piece.shown : Utf8Piece → Char
  | .char _ c => c
  | .stray .. => replacement

/-- The text of the bytes, with a replacement character for each stretch of stray bytes. -/
def decodeLossy (bytes : List UInt8) : List Char :=
  (pieces bytes).map Utf8Piece.shown

/-- The bytes that encode a text. -/
def encode (text : List Char) : List UInt8 :=
  text.flatMap String.utf8EncodeChar

end DepGraph.Text
