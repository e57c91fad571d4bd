import ClassReport.Bytes

/-!
# Consoles

Where the listing of a run goes. A console may have room for so many bytes only: of the write that
goes beyond them it takes as much as fits, and that write fails. A write of nothing never fails.
-/

namespace ClassReport

/-- What has been written, and how many bytes there is room for; without a limit there is always
room. -/
structure Console where
  limit : Option Nat
  written : Bytes
  deriving DecidableEq, Repr

namespace Console

def blank (limit : Option Nat) : Console := ⟨limit, []⟩

/-- What a console holds after a write, and whether the write succeeded. -/
def write (console : Console) (bytes : Bytes) : Console × Bool :=
  let all := console.written ++ bytes
  match console.limit with
  | none => ({ console with written := all }, true)
  | some most => ({ console with written := all.take most }, decide (all.length ≤ most))

end Console

end ClassReport
