import AgentConfig.Text.Quoted

namespace AgentConfig.Text

/-- Why bytes are not UTF-8. -/
inductive Utf8Reason where
  | badStart
  | badContinuation
  | truncated
  deriving DecidableEq

/-- The bytes from `first` to `last` cannot be read; `byte` is the first of them. -/
structure Utf8Error where
  first : Nat
  last : Nat
  byte : UInt8
  reason : Utf8Reason
  deriving DecidableEq

namespace Utf8Reason

def message : Utf8Reason → String
  | badStart => "invalid start byte"
  | badContinuation => "invalid continuation byte"
  | truncated => "unexpected end of data"

end Utf8Reason

def Utf8Error.message (e : Utf8Error) : String :=
  let place :=
    if e.first = e.last then s!"byte 0x" ++ String.ofList (hexDigits 2 e.byte.toNat) ++ s!" in position {e.first}"
    else s!"bytes in position {e.first}-{e.last}"
  "'utf-8' codec can't decode " ++ place ++ ": " ++ e.reason.message

def byte (n : Nat) : UInt8 :=
  UInt8.ofNat n

/-- The bytes of a character, one to four of them by the size of its code point. -/
def utf8Char (c : Char) : List UInt8 :=
  let n := c.toNat
  if n < 0x80 then [byte n]
  else if n < 0x800 then [byte (0xc0 + n / 64), byte (0x80 + n % 64)]
  else if n < 0x10000 then [byte (0xe0 + n / 4096), byte (0x80 + n / 64 % 64), byte (0x80 + n % 64)]
  else [byte (0xf0 + n / 262144), byte (0x80 + n / 4096 % 64), byte (0x80 + n / 64 % 64), byte (0x80 + n % 64)]

def utf8 (s : List Char) : List UInt8 :=
  s.flatMap utf8Char

def isContinuation (b : UInt8) : Bool :=
  0x80 ≤ b.toNat && b.toNat < 0xc0

/-- The least and the greatest second byte after a leading byte, which shut out overlong forms,
surrogates and code points past the last one. -/
def secondBounds (lead : Nat) : Nat × Nat :=
  if lead = 0xe0 then (0xa0, 0xbf)
  else if lead = 0xed then (0x80, 0x9f)
  else if lead = 0xf0 then (0x90, 0xbf)
  else if lead = 0xf4 then (0x80, 0x8f)
  else (0x80, 0xbf)

/-- How many bytes follow a leading byte. -/
def followers? (lead : Nat) : Option Nat :=
  if lead < 0x80 then some 0
  else if 0xc2 ≤ lead ∧ lead < 0xe0 then some 1
  else if 0xe0 ≤ lead ∧ lead < 0xf0 then some 2
  else if 0xf0 ≤ lead ∧ lead < 0xf5 then some 3
  else none

/-- What is wrong with the `count` bytes that should follow a leading byte, and how many of them are good. -/
def followFault? (lead count : Nat) (rest : List UInt8) : Option (Nat × Utf8Reason) :=
  let good := rest.take count |>.zipIdx.takeWhile fun (b, i) =>
    if i = 0 then (secondBounds lead).1 ≤ b.toNat && b.toNat ≤ (secondBounds lead).2 else isContinuation b
  if good.length = count then none
  else if good.length = rest.length then some (good.length, .truncated)
  else some (good.length, .badContinuation)

/-- The code point of a leading byte and the bytes that follow it. -/
def codePoint (lead : Nat) (tail : List UInt8) : Nat :=
  let top := match tail.length with
    | 0 => lead
    | 1 => lead - 0xc0
    | 2 => lead - 0xe0
    | _ => lead - 0xf0
  tail.foldl (fun n b => 64 * n + (b.toNat - 0x80)) top

/-- Reads from position `start`, after `skip` bytes that belong to the character before. -/
def readUtf8From (start : Nat) : Nat → List UInt8 → Except Utf8Error (List Char)
  | _, [] => .ok []
  | skip + 1, _ :: rest => readUtf8From (start + 1) skip rest
  | 0, b :: rest =>
    match followers? b.toNat with
    | none => .error { first := start, last := start, byte := b, reason := .badStart }
    | some count =>
      match followFault? b.toNat count rest with
      | some (good, reason) => .error { first := start, last := start + good, byte := b, reason }
      | none => (Char.ofNat (codePoint b.toNat (rest.take count)) :: ·) <$> readUtf8From (start + 1) count rest

def readUtf8 (bytes : List UInt8) : Except Utf8Error (List Char) :=
  readUtf8From 0 0 bytes

/-- Every line end, `\r\n` or a lone `\r` too, read as `\n`. -/
def unifyLineEnds : List Char → List Char
  | [] => []
  | '\r' :: '\n' :: rest => '\n' :: unifyLineEnds rest
  | c :: rest => (if c = '\r' then '\n' else c) :: unifyLineEnds rest

end AgentConfig.Text
