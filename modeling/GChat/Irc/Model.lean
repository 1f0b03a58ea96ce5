import GChat.Foundation.Text
import GChat.Foundation.Utf16

/-!
# Two formatters of IRC codes

The terminal turns a text into spans with a style, character by character. The web turns it into
segments with a format, code unit by code unit. Both read the codes for bold, italic, underline,
inverse, colours and reset, and leave out the other control characters.
-/

namespace GChat

namespace Irc

open Foundation

/-! ### The terminal -/

inductive Color where
  | white
  | black
  | blue
  | green
  | lightRed
  | red
  | magenta
  | rgb (r g b : ℕ)
  | yellow
  | lightGreen
  | cyan
  | lightCyan
  | lightBlue
  | lightMagenta
  | darkGray
  | gray
deriving DecidableEq

def colors : List Color :=
  [.white, .black, .blue, .green, .lightRed, .red, .magenta, .rgb 252 127 0, .yellow, .lightGreen,
    .cyan, .lightCyan, .lightBlue, .lightMagenta, .darkGray, .gray]

inductive Flag where
  | bold
  | italic
  | underlined
  | reversed
deriving DecidableEq

/-- A set of flags. -/
structure Modifier where
  bold : Bool
  italic : Bool
  underlined : Bool
  reversed : Bool
deriving DecidableEq

def Modifier.empty : Modifier := ⟨false, false, false, false⟩

def Modifier.contains (m : Modifier) : Flag → Bool
  | .bold => m.bold
  | .italic => m.italic
  | .underlined => m.underlined
  | .reversed => m.reversed

def Modifier.put (m : Modifier) (flag : Flag) (value : Bool) : Modifier :=
  match flag with
  | .bold => { m with bold := value }
  | .italic => { m with italic := value }
  | .underlined => { m with underlined := value }
  | .reversed => { m with reversed := value }

structure Style where
  fg : Option Color
  bg : Option Color
  addModifier : Modifier
  subModifier : Modifier
deriving DecidableEq

namespace Style

def default : Style := ⟨none, none, .empty, .empty⟩

def add (style : Style) (flag : Flag) : Style :=
  { style with
    addModifier := style.addModifier.put flag true
    subModifier := style.subModifier.put flag false }

def remove (style : Style) (flag : Flag) : Style :=
  { style with
    addModifier := style.addModifier.put flag false
    subModifier := style.subModifier.put flag true }

def toggle (style : Style) (flag : Flag) : Style :=
  if style.addModifier.contains flag then style.remove flag else style.add flag

end Style

structure Span where
  content : List Char
  style : Style
deriving DecidableEq

def isAsciiDigit (c : Char) : Bool := 48 ≤ c.toNat && c.toNat ≤ 57

/-- At most `n` digits of a number, behind the value of those read before. -/
def digits : ℕ → Option ℕ → List Char → Option ℕ × List Char
  | n + 1, value, c :: chars =>
      if isAsciiDigit c then digits n (some (value.getD 0 * 10 + (c.toNat - 48))) chars
      else (value, c :: chars)
  | _, value, chars => (value, chars)

def number (chars : List Char) : Option ℕ × List Char := digits 2 none chars

/-- The colours behind their code. -/
def colour (style : Style) (chars : List Char) : Style × List Char :=
  match number chars with
  | (none, rest) => ({ style with fg := none, bg := none }, rest)
  | (some n, rest) =>
      match rest with
      | ',' :: after =>
          if after.head?.any isAsciiDigit then
            ({ style with fg := colors[n]?, bg := (number after).1.bind (colors[·]?) },
              (number after).2)
          else ({ style with fg := colors[n]? }, rest)
      | _ => ({ style with fg := colors[n]? }, rest)

def isCode (c : Char) : Bool :=
  c.toNat == 2 || c.toNat == 3 || c.toNat == 15 || c.toNat == 22 || c.toNat == 29 || c.toNat == 31

def flagOf (c : Char) : Flag :=
  if c.toNat = 2 then .bold
  else if c.toNat = 22 then .reversed
  else if c.toNat = 29 then .italic
  else .underlined

structure Terminal where
  result : List Span
  style : Style
  buffer : List Char

def Terminal.flush (s : Terminal) : Terminal :=
  if s.buffer = [] then s
  else { s with result := s.result ++ [⟨s.buffer, s.style⟩], buffer := [] }

theorem digits_length (n : ℕ) (value : Option ℕ) (chars : List Char) :
    (digits n value chars).2.length ≤ chars.length := by
  induction n generalizing value chars with
  | zero => exact le_rfl
  | succ n ih =>
      cases chars with
      | nil => exact le_rfl
      | cons c chars =>
          unfold digits
          split
          · exact (ih _ chars).trans (Nat.le_succ _)
          · exact le_rfl

theorem colour_length (style : Style) (chars : List Char) :
    (colour style chars).2.length ≤ chars.length := by
  have hnumber := digits_length 2 none chars
  unfold colour
  cases hn : number chars with
  | mk value rest =>
      rw [number] at hn
      rw [hn] at hnumber
      cases value with
      | none => exact hnumber
      | some n =>
          dsimp only
          split
          next after =>
            split
            · exact (digits_length 2 none after).trans ((Nat.le_succ _).trans hnumber)
            · exact hnumber
          · exact hnumber

def Terminal.read (s : Terminal) : List Char → Terminal
  | [] => s
  | c :: chars =>
      if isCode c then
        if c.toNat = 15 then Terminal.read { s.flush with style := .default } chars
        else if c.toNat = 3 then
          Terminal.read { s.flush with style := (colour s.flush.style chars).1 }
            (colour s.flush.style chars).2
        else Terminal.read { s.flush with style := s.flush.style.toggle (flagOf c) } chars
      else if !isControl c || c.toNat = 10 || c.toNat = 9 then
        Terminal.read { s with buffer := s.buffer ++ [c] } chars
      else Terminal.read s chars
termination_by chars => chars.length
decreasing_by
  all_goals
    have := colour_length s.flush.style chars
    simp only [List.length_cons]
    omega

def ircSpans (text : String) : List Span :=
  (Terminal.read ⟨[], .default, []⟩ text.toList).flush.result

/-! ### The web -/

structure Format where
  bold : Bool
  italic : Bool
  underline : Bool
  inverse : Bool
  foreground : Option String
  background : Option String
deriving DecidableEq

structure Segment where
  text : List ℕ
  format : Format
deriving DecidableEq

def palette : List String :=
  ["#ffffff", "#000000", "#00007f", "#009300", "#ff0000", "#7f0000", "#9c009c", "#fc7f00",
    "#ffff00", "#00fc00", "#009393", "#00ffff", "#0000fc", "#ff00ff", "#7f7f7f", "#d2d2d2"]

def plain : Format := ⟨false, false, false, false, none, none⟩

def isDigitUnit (u : ℕ) : Bool := 48 ≤ u && u ≤ 57

def decimal (units : List ℕ) : ℕ := units.foldl (fun value u => value * 10 + (u - 48)) 0

/-- Up to two digits at the front. -/
def upToTwo (units : List ℕ) : List ℕ := (units.takeWhile isDigitUnit).take 2

/-- The match of one or two digits, with one or two digits behind a comma if there are any: both
groups, and the length of the whole. -/
def colourMatch (units : List ℕ) : Option (List ℕ × Option (List ℕ) × ℕ) :=
  let first := upToTwo units
  if first = [] then none
  else
    match units.drop first.length with
    | 44 :: after =>
        if upToTwo after = [] then some (first, none, first.length)
        else some (first, some (upToTwo after), first.length + 1 + (upToTwo after).length)
    | _ => some (first, none, first.length)

structure Web where
  result : List Segment
  format : Format
  buffer : List ℕ

def Web.flush (s : Web) : Web :=
  if s.buffer = [] then s
  else { s with result := s.result ++ [⟨s.buffer, s.format⟩], buffer := [] }

/-- The format behind a colour code, and how many units the code takes. -/
def Format.colour (format : Format) (units : List ℕ) : Format × ℕ :=
  match colourMatch units with
  | some (first, none, length) => ({ format with foreground := palette[decimal first]? }, length)
  | some (first, some second, length) =>
      ({ format with
        foreground := palette[decimal first]?
        background := palette[decimal second]? }, length)
  | none => ({ format with foreground := none, background := none }, 0)

def Format.code (format : Format) (code : ℕ) : Format :=
  if code = 2 then { format with bold := !format.bold }
  else if code = 29 then { format with italic := !format.italic }
  else if code = 31 then { format with underline := !format.underline }
  else if code = 22 then { format with inverse := !format.inverse }
  else plain

def Web.read (s : Web) : List ℕ → Web
  | [] => s
  | code :: units =>
      if [2, 3, 15, 22, 29, 31].contains code then
        if code = 3 then
          Web.read { s.flush with format := (s.flush.format.colour units).1 }
            (units.drop (s.flush.format.colour units).2)
        else Web.read { s.flush with format := s.flush.format.code code } units
      else if (32 ≤ code && (code < 127 || 159 < code)) || code = 9 || code = 10 then
        Web.read { s with buffer := s.buffer ++ [code] } units
      else Web.read s units
termination_by units => units.length
decreasing_by
  all_goals
    simp only [List.length_cons, List.length_drop]
    omega

/-- The text is given by its UTF-16 code units. -/
def ircFormat (units : List ℕ) : List Segment := (Web.read ⟨[], plain, []⟩ units).flush.result

end Irc

end GChat
