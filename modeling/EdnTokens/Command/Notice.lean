import EdnTokens.Text.Basic

/-!
# Notices

Lines that a command writes beside its result. Some of them end with the time the command took,
which is filled in when they are shown.
-/

namespace EdnTokens

/-- Something a command tells its user. -/
inductive Notice
  /-- A line. -/
  | line (t : Text)
  /-- A line that ends with the time taken. -/
  | timed (t : Text)
  deriving DecidableEq, Repr

/-- The text of a notice, given the time taken in seconds. -/
def Notice.render (elapsed : Text) : Notice → Text
  | line t => Text.line t
  | timed t => Text.line (t ++ " in ".toList ++ elapsed ++ "s".toList)

end EdnTokens
