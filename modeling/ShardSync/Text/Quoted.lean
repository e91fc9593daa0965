import ShardSync.Text.Hex
import ShardSync.Text.Visible

/-!
# Quoted texts

How a report shows a text that may hold anything: between quotes, with
escapes for the quote, the backslash, the common controls and zero. Other
characters that cannot be seen are written as their code point.
-/

set_option autoImplicit false

namespace ShardSync.Text.Quoted

def escapeSymbol (symbol : Char) : List Char :=
  if symbol = '"' then ['\\', '"']
  else if symbol = '\\' then ['\\', '\\']
  else if symbol = '\n' then ['\\', 'n']
  else if symbol = '\r' then ['\\', 'r']
  else if symbol = '\t' then ['\\', 't']
  else if symbol = '\x00' then ['\\', '0']
  else if Visible.isVisible symbol.toNat then [symbol]
  else '\\' :: 'u' :: '\x7b' :: (Hex.minimal symbol.toNat).toList ++ ['\x7d']

def encode (text : String) : String :=
  String.ofList ('"' :: text.toList.flatMap escapeSymbol ++ ['"'])

end ShardSync.Text.Quoted
