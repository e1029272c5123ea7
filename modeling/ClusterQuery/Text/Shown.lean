import ClusterQuery.Text.Blank
import ClusterQuery.Text.HiddenTable
import ClusterQuery.Text.WidthTable

/-!
# Shown text

A text in double quotes as diagnostics show it: quotes, backslashes and the common control characters after a backslash,
any other character that would not be seen by its code.
-/

namespace ClusterQuery.Text

/-- One character as it stands between the quotes. -/
def shownChar (c : Char) : List Char :=
  if c = '"' ∨ c = '\\' then ['\\', c]
  else if c = '\n' then ['\\', 'n']
  else if c = '\r' then ['\\', 'r']
  else if c = '\t' then ['\\', 't']
  else if c.toNat = 0 then ['\\', '0']
  else if inRanges hiddenRanges c.toNat || inRanges extendRanges c.toNat then
    '\\' :: 'u' :: '{' :: Nat.toDigits 16 c.toNat ++ ['}']
  else [c]

/-- A text in double quotes, made visible. -/
def shown (text : String) : String :=
  String.ofList ('"' :: text.toList.flatMap shownChar ++ ['"'])

end ClusterQuery.Text
