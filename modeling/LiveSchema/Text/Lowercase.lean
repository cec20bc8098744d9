import LiveSchema.Text.CaseTable
/-! Lower case of a text in all scripts. Two letters are special: the dotted capital I becomes an i
with a combining dot, and a capital sigma becomes the final form where a word ends, that is after a
cased letter and before none, ignorable characters passed over on both sides. -/
namespace LiveSchema.Text

def CaseRun.shifted? (r : CaseRun) (n : Nat) : Option Nat :=
  if r.first ≤ n ∧ n ≤ r.last ∧ (n - r.first) % r.step = 0 then some (n + r.shift).toNat else none

def lowerLetter (c : Char) : Char :=
  ((lowerRuns.findSome? (·.shifted? c.toNat)).map Char.ofNat).getD c

def inRanges (ranges : List (Nat × Nat)) (c : Char) : Bool :=
  ranges.any fun r => r.1 ≤ c.toNat && c.toNat ≤ r.2

def meetsCased (cs : List Char) : Bool :=
  match cs.dropWhile (inRanges ignorableRanges) with
  | [] => false
  | c :: _ => inRanges casedRanges c

def lowerFrom : List Char → List Char → List Char
  | _, [] => []
  | before, c :: after =>
    (if c = 'Σ' then [if meetsCased before && !meetsCased after then 'ς' else 'σ']
      else if c = '\u0130' then ['i', '\u0307']
      else [lowerLetter c]) ++ lowerFrom (c :: before) after

def lowercase (s : String) : String := String.ofList (lowerFrom [] s.toList)

end LiveSchema.Text
