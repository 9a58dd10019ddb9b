/-! Reading source text from bytes: UTF-8 with an optional byte order mark, and
line ends of any of the three kinds. -/
namespace Mus.Source

inductive DecodeReason where
  | invalidStart
  | invalidContinuation
  | unexpectedEnd
  deriving DecidableEq, Repr

/-- The bytes at fault: their first position, their number, the first of them,
and what is wrong. -/
structure DecodeFault where
  position : Nat
  length : Nat
  byte : Nat
  reason : DecodeReason
  deriving DecidableEq, Repr

def isContinuation (byte : Nat) : Bool :=
  decide (128 ≤ byte) && decide (byte < 192)

/-- Is this byte possible after the first of a sequence? It excludes overlong
forms, surrogates and what lies beyond the last code point. -/
def isSecond (first second : Nat) : Bool :=
  isContinuation second &&
    (first != 224 || decide (160 ≤ second)) && (first != 237 || decide (second < 160)) &&
    (first != 240 || decide (144 ≤ second)) && (first != 244 || decide (second < 144))

/-- How many bytes a sequence has, by its first; zero where none begins. -/
def sequenceLength (first : Nat) : Nat :=
  if first < 128 then 1
  else if first < 194 then 0
  else if first < 224 then 2
  else if first < 240 then 3
  else if first < 245 then 4
  else 0

def firstBits (first : Nat) : Nat :=
  if first < 224 then first % 32 else if first < 240 then first % 16 else first % 8

/-- The length of the good part of a sequence that is not well formed or cut
off, and what is wrong with it. -/
def badSequence (first : Nat) (rest : List Nat) : Nat × DecodeReason :=
  match rest with
  | [] => (1, .unexpectedEnd)
  | second :: rest =>
      if !isSecond first second then (1, .invalidContinuation)
      else if sequenceLength first = 2 then (2, .unexpectedEnd)
      else match rest with
        | [] => (2, .unexpectedEnd)
        | third :: rest =>
            if !isContinuation third then (2, .invalidContinuation)
            else if sequenceLength first = 3 then (3, .unexpectedEnd)
            else match rest with
              | [] => (3, .unexpectedEnd)
              | fourth :: _ =>
                  if !isContinuation fourth then (3, .invalidContinuation)
                  else (4, .unexpectedEnd)

/-- Decodes UTF-8 from a position on. -/
def decodeFrom (position : Nat) (bytes : List Nat) : Except DecodeFault (List Char) :=
  match bytes with
  | [] => .ok []
  | first :: rest =>
      let length := sequenceLength first
      let tail := rest.take (length - 1)
      let wellFormed := decide (tail.length + 1 = length) && tail.all isContinuation &&
        (match tail with | [] => true | second :: _ => isSecond first second)
      if length = 0 then .error ⟨position, 1, first, .invalidStart⟩
      else if length = 1 then (decodeFrom (position + 1) rest).map (Char.ofNat first :: ·)
      else if wellFormed then
        let point := tail.foldl (fun point byte => point * 64 + byte % 64) (firstBits first)
        (decodeFrom (position + length) (rest.drop (length - 1))).map (Char.ofNat point :: ·)
      else
        let (good, reason) := badSequence first rest
        .error ⟨position, good, first, reason⟩
termination_by bytes.length
decreasing_by all_goals grind

def byteOrderMark : List Nat := [239, 187, 191]

/-- Decodes a file. A byte order mark is dropped and positions are counted
behind it; a file that holds only a part of the mark is empty. -/
def decode (bytes : List Nat) : Except DecodeFault (List Char) :=
  if byteOrderMark.isPrefixOf bytes then decodeFrom 0 (bytes.drop 3)
  else if bytes.isPrefixOf byteOrderMark then .ok []
  else decodeFrom 0 bytes

/-- Every line end becomes a line feed. -/
def unifyLineEnds : List Char → List Char
  | [] => []
  | '\r' :: '\n' :: rest => '\n' :: unifyLineEnds rest
  | '\r' :: rest => '\n' :: unifyLineEnds rest
  | c :: rest => c :: unifyLineEnds rest

def DecodeReason.text : DecodeReason → String
  | .invalidStart => "invalid start byte"
  | .invalidContinuation => "invalid continuation byte"
  | .unexpectedEnd => "unexpected end of data"

def DecodeFault.message (fault : DecodeFault) : String :=
  let place :=
    if fault.length = 1 then
      "byte 0x" ++ String.ofList
        [Nat.digitChar (fault.byte / 16), Nat.digitChar (fault.byte % 16)] ++
        " in position " ++ toString fault.position
    else
      "bytes in position " ++ toString fault.position ++ "-" ++
        toString (fault.position + fault.length - 1)
  "'utf-8' codec can't decode " ++ place ++ ": " ++ fault.reason.text

end Mus.Source
