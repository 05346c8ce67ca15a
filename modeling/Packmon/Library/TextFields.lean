import Packmon.Library.TextCuts

/-!
# Cutting a text off
-/

namespace GoText

/-- Cut a text off the end, if it stands there. -/
def trimBack (back s : List Char) : List Char :=
  if back <:+ s then s.take (s.length - back.length) else s

end GoText
