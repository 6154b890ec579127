import AgentConfig.Text.Utf8

namespace AgentConfig.Text

/-- The 64 digits of the standard alphabet. -/
def base64Alphabet : List Char :=
  "ABCDEFGHIJKLMNOPQRSTUVWXYZabcdefghijklmnopqrstuvwxyz0123456789+/".toList

def base64Digit (n : Nat) : Char :=
  base64Alphabet.getD n 'A'

/-- Three bytes in four digits; the last group is filled up with `=`. -/
def base64 : List UInt8 → List Char
  | [] => []
  | [a] => [base64Digit (a.toNat / 4), base64Digit (a.toNat % 4 * 16), '=', '=']
  | [a, b] =>
    [base64Digit (a.toNat / 4), base64Digit (a.toNat % 4 * 16 + b.toNat / 16), base64Digit (b.toNat % 16 * 4), '=']
  | a :: b :: c :: rest =>
    base64Digit (a.toNat / 4) :: base64Digit (a.toNat % 4 * 16 + b.toNat / 16) ::
      base64Digit (b.toNat % 16 * 4 + c.toNat / 64) :: base64Digit (c.toNat % 64) :: base64 rest

/-- Digits that may stand in a file name or an address, without filling. -/
def base64Url (bytes : List UInt8) : List Char :=
  ((base64 bytes).filter (· ≠ '=')).map fun c => if c = '+' then '-' else if c = '/' then '_' else c

inductive Base64Error where
  | loneDigit (digits : Nat)
  | padding
  deriving DecidableEq

def Base64Error.message : Base64Error → String
  | .loneDigit digits =>
    s!"Invalid base64-encoded string: number of data characters ({digits}) cannot be 1 more than a multiple of 4"
  | .padding => "Incorrect padding"

/-- What has been read of a group: the position in it, the bits left over and the `=` seen. -/
structure Base64State where
  position : Nat
  left : Nat
  pads : Nat

/-- Characters outside the alphabet are passed over. Enough `=` after two or three digits end the text. -/
def readBase64From (s : Base64State) (count : Nat) : List Char → Except Base64Error (List UInt8)
  | [] =>
    if s.position = 0 then .ok []
    else if s.position = 1 then .error (.loneDigit (count / 3 * 4 + 1))
    else .error .padding
  | c :: rest =>
    if c = '=' then
      if 2 ≤ s.position then
        if 4 ≤ s.position + s.pads + 1 then .ok []
        else readBase64From { s with pads := s.pads + 1 } count rest
      else readBase64From s count rest
    else
      match base64Alphabet.idxOf? c with
      | none => readBase64From s count rest
      | some v =>
        if s.position = 0 then readBase64From ⟨1, v, 0⟩ count rest
        else if s.position = 1 then
          (UInt8.ofNat (s.left * 4 + v / 16) :: ·) <$> readBase64From ⟨2, v % 16, 0⟩ (count + 1) rest
        else if s.position = 2 then
          (UInt8.ofNat (s.left * 16 + v / 4) :: ·) <$> readBase64From ⟨3, v % 4, 0⟩ (count + 1) rest
        else (UInt8.ofNat (s.left * 64 + v) :: ·) <$> readBase64From ⟨0, 0, 0⟩ (count + 1) rest

def readBase64 (text : List Char) : Except Base64Error (List UInt8) :=
  readBase64From ⟨0, 0, 0⟩ 0 text

end AgentConfig.Text
