/-!
# Durations

A duration is written in seconds if it is a second or longer, with as many decimals as
it takes, and else in milliseconds.
-/

namespace SemanticHighlight.Text

/-- The decimals of a number of thousandths, without noughts at the end. -/
def thousandths (n : Nat) : String :=
  let digits := [n / 100 % 10, n / 10 % 10, n % 10]
  let kept := (digits.reverse.dropWhile (· = 0)).reverse
  String.join (kept.map toString)

/-- The text of a number of milliseconds. -/
def duration (ms : UInt64) : String :=
  let n := ms.toNat
  if 1000 ≤ n then
    let decimals := thousandths (n % 1000)
    toString (n / 1000) ++ (if decimals = "" then "" else "." ++ decimals) ++ "s"
  else if 0 < n then toString n ++ "ms"
  else "0ns"

end SemanticHighlight.Text
