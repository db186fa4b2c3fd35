import StorageControl.Text.Rune

/-! Names outside ASCII written in ASCII.

A label of a host name keeps its ASCII characters and appends the others in increasing
order, each as the distance from the one before, in numbers of base thirty-six whose
digits have thresholds that adapt to the distances.
-/

set_option autoImplicit false

namespace StorageControl.Url.Punycode

def digit (n : Nat) : Char := if n < 26 then Char.ofNat (0x61 + n) else Char.ofNat (0x16 + n)

def threshold (position bias : Nat) : Nat :=
  if position ≤ bias then 1 else if bias + 26 ≤ position then 26 else position - bias

theorem threshold_pos (position bias : Nat) : 1 ≤ threshold position bias := by
  unfold threshold
  split
  · omega
  · split <;> omega

/-- A number, its last digit below the threshold of its position. -/
def number (bias position n : Nat) : List Char :=
  let t := threshold position bias
  if n < t then [digit n]
  else digit (t + (n - t) % (36 - t)) :: number bias (position + 36) ((n - t) / (36 - t))
termination_by n
decreasing_by
  have positive := threshold_pos position bias
  have le := Nat.div_le_self (n - threshold position bias) (36 - threshold position bias)
  omega

def shrink (delta steps : Nat) : Nat × Nat :=
  if 455 < delta then shrink (delta / 35) (steps + 36) else (delta, steps)
termination_by delta
decreasing_by exact Nat.div_lt_self (by omega) (by omega)

def adapt (delta points : Nat) (isFirst : Bool) : Nat :=
  let scaled := if isFirst then delta / 700 else delta / 2
  let (delta, steps) := shrink (scaled + scaled / points) 0
  steps + 36 * delta / (delta + 38)

structure Progress where
  written : List Char
  delta : Nat
  bias : Nat
  handled : Nat

def pass (basics n : Nat) (p : Progress) (c : Char) : Progress :=
  if c.toNat < n then { p with delta := p.delta + 1 }
  else if c.toNat = n then
    { written := p.written ++ number p.bias 36 p.delta
      delta := 0
      bias := adapt p.delta (p.handled + 1) (p.handled == basics)
      handled := p.handled + 1 }
  else p

/-- Write the points, given in increasing order; `n` is the first point not yet passed. -/
def points (label : List Char) (basics : Nat) : List Nat → Nat → Progress → Progress
  | [], _, p => p
  | m :: rest, n, p =>
    let p := { p with delta := p.delta + (m - n) * (p.handled + 1) }
    let p := label.foldl (pass basics m) p
    points label basics rest (m + 1) { p with delta := p.delta + 1 }

def label (text : List Char) : List Char :=
  let basic := text.filter (·.toNat < 0x80)
  if basic.length = text.length then text
  else
    let others := ((text.filter (0x80 ≤ ·.toNat)).map Char.toNat).mergeSort.eraseReps
    let start : Progress := ⟨[], 0, 72, basic.length⟩
    "xn--".toList ++ basic ++ (if basic.isEmpty then [] else ['-']) ++
      (points text basic.length others 0x80 start).written

end StorageControl.Url.Punycode
