/-! Letters with accents: the Latin letter that a precomposed character is built on. Only
characters whose canonical decomposition starts with an ASCII letter are listed; every other
character counts as punctuation in a sort key, decomposed or not. -/

namespace MusicLibrary.Text

/-- Runs of code points with the letter each is built on, a dot where there is none. -/
def baseLetterBlocks : List (Nat × String) :=
  [(0xC0, "AAAAAA.CEEEEIIII.NOOOOO..UUUUY..aaaaaa.ceeeeiiii.nooooo..uuuuy.y"),
   (0x100, "AaAaAaCcCcCcCcDd..EeEeEeEeEeGgGgGgGgHh..IiIiIiIiI...JjKk.LlLlLl"),
   (0x140, "...NnNnNn...OoOoOo..RrRrRrSsSsSsSsTtTt..UuUuUuUuUuUuWwYyYZzZzZz."),
   (0x1A0, "Oo.............Uu"),
   (0x1CD, "AaIiOoUuUuUuUuUu.AaAa....GgKkOoOo..j...Gg..NnAa....AaAaEeEeIiIiOoOoRrRrUuUuSsTt..Hh"),
   (0x226, "AaEeOoOoOoOoYy"),
   (0x1E00, "AaBbBbBbCcDdDdDdDdDdEeEeEeEeEeFfGgHhHhHhHhHhIiIiKkKkKkLlLlLlLlMm"),
   (0x1E40, "MmMmNnNnNnNnOoOoOoOoPpPpRrRrRrRrSsSsSsSsSsTtTtTtTtUuUuUuUuUuVvVv"),
   (0x1E80, "WwWwWwWwWwXxXxYyZzZzZzhtwy......AaAaAaAaAaAaAaAaAaAaAaAaEeEeEeEe"),
   (0x1EC0, "EeEeEeEeIiIiOoOoOoOoOoOoOoOoOoOoOoOoUuUuUuUuUuUuUuYyYyYyYy"),
   (0x212A, "KA")]

/-- The letter in one run, if the character lies in it and has one. -/
def baseLetterIn (c : Char) (block : Nat × String) : Option Char :=
  if c.toNat < block.1 then none
  else (block.2.toList[c.toNat - block.1]?).filter (· ≠ '.')

/-- The Latin letter an accented letter is built on; any other character is its own base. -/
def baseLetter (c : Char) : Char :=
  if c.toNat < 0x80 then c else (baseLetterBlocks.findSome? (baseLetterIn c)).getD c

@[simp] theorem baseLetter_of_ascii {c : Char} (h : c.toNat < 0x80) : baseLetter c = c := by
  simp [baseLetter, h]

example : baseLetter 'é' = 'e' ∧ baseLetter 'Ǖ' = 'U' ∧ baseLetter 'ø' = 'ø' := by decide

end MusicLibrary.Text
