/-!
# Text.Painted — texts with colours for a terminal

A paint is a list of codes of the terminal's "select graphic rendition" sequence.  Painting puts the
sequence before a text and a reset after it; a reset inside the text is followed by the sequence again,
so that the paint lasts to the end.  On a plain terminal painting does nothing.
-/

namespace StackMutants

structure Paint where
  codes : List Nat

namespace Paint

def bold : Paint := ⟨[1]⟩

def dimmed : Paint := ⟨[2]⟩

def red : Paint := ⟨[31]⟩

def green : Paint := ⟨[32]⟩

def yellow : Paint := ⟨[33]⟩

/-- The same paint in bold. -/
def strong (p : Paint) : Paint := ⟨1 :: p.codes⟩

def reset : String := "\x1b[0m"

def start (p : Paint) : String := "\x1b[" ++ ";".intercalate (p.codes.map toString) ++ "m"

end Paint

/-- Whether the terminal shows colours. -/
inductive Terminal where
  | plain
  | colored
deriving DecidableEq

def Terminal.paint (t : Terminal) (p : Paint) (s : String) : String :=
  match t with
  | .plain => s
  | .colored => p.start ++ (Paint.reset ++ p.start).intercalate (s.splitOn Paint.reset) ++ Paint.reset

end StackMutants
