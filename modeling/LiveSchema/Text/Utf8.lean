/-! Characters of raw bytes. A byte that belongs to no character is kept as such. -/
namespace LiveSchema.Text

def continuation? (b : UInt8) : Option Nat :=
  if 0x80 ≤ b.toNat ∧ b.toNat < 0xC0 then some (b.toNat - 0x80) else none

def charFrom? (least n : Nat) : Option Char :=
  if least ≤ n ∧ (n < 0xD800 ∨ (0xDFFF < n ∧ n ≤ 0x10FFFF)) then some (Char.ofNat n) else none

def twoBytes? (a b : UInt8) : Option Char := do
  if 0xC0 ≤ a.toNat ∧ a.toNat < 0xE0 then
    charFrom? 0x80 ((a.toNat - 0xC0) * 64 + (← continuation? b))
  else none

def threeBytes? (a b c : UInt8) : Option Char := do
  if 0xE0 ≤ a.toNat ∧ a.toNat < 0xF0 then
    charFrom? 0x800 (((a.toNat - 0xE0) * 64 + (← continuation? b)) * 64 + (← continuation? c))
  else none

def fourBytes? (a b c d : UInt8) : Option Char := do
  if 0xF0 ≤ a.toNat ∧ a.toNat < 0xF8 then
    charFrom? 0x10000 ((((a.toNat - 0xF0) * 64 + (← continuation? b)) * 64 +
      (← continuation? c)) * 64 + (← continuation? d))
  else none

def takeChar? : List UInt8 → Option (Char × List UInt8)
  | [] => none
  | a :: rest =>
    if a.toNat < 0x80 then some (Char.ofNat a.toNat, rest)
    else
      match rest with
      | [] => none
      | b :: rest =>
        match twoBytes? a b with
        | some char => some (char, rest)
        | none =>
          match rest with
          | [] => none
          | c :: rest =>
            match threeBytes? a b c with
            | some char => some (char, rest)
            | none =>
              match rest with
              | [] => none
              | d :: rest =>
                match fourBytes? a b c d with
                | some char => some (char, rest)
                | none => none

theorem takenShorter {bytes rest : List UInt8} {char : Char}
    (h : takeChar? bytes = some (char, rest)) : rest.length < bytes.length := by
  unfold takeChar? at h
  repeat' split at h
  all_goals simp_all
  all_goals omega

def symbols (bytes : List UInt8) : List (Option Char) :=
  match bytes with
  | [] => []
  | b :: rest =>
    match _h : takeChar? (b :: rest) with
    | some (char, rest') => some char :: symbols rest'
    | none => none :: symbols rest
  termination_by bytes.length
  decreasing_by
    · exact takenShorter (by assumption)
    · simp

def utf8? (bytes : List UInt8) : Option String := ((symbols bytes).mapM id).map String.ofList

end LiveSchema.Text
