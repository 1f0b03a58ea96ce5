import GChat.Irc.Model
import Mathlib.Data.List.Basic

/-!
# The formatters agree

Both formatters show the same characters, each with the same look. The proof runs them side by
side: they keep the same look and have shown the same so far.
-/

namespace GChat

namespace Irc

open Foundation

/-- How a character is shown. Colours are their places in the palette. -/
structure Look where
  bold : Bool
  italic : Bool
  underline : Bool
  inverse : Bool
  foreground : Option ℕ
  background : Option ℕ
deriving DecidableEq

def Style.look (style : Style) : Look where
  bold := style.addModifier.bold
  italic := style.addModifier.italic
  underline := style.addModifier.underlined
  inverse := style.addModifier.reversed
  foreground := style.fg.map colors.idxOf
  background := style.bg.map colors.idxOf

def Format.look (format : Format) : Look where
  bold := format.bold
  italic := format.italic
  underline := format.underline
  inverse := format.inverse
  foreground := format.foreground.map palette.idxOf
  background := format.background.map palette.idxOf

/-- The characters of spans, each with its look. -/
def visible (spans : List Span) : List (Char × Look) :=
  spans.flatMap fun span => span.content.map (·, span.style.look)

/-- The code units of segments, each with its look. -/
def shown (segments : List Segment) : List (ℕ × Look) :=
  segments.flatMap fun segment => segment.text.map (·, segment.format.look)

/-- Characters with their looks, as code units. -/
def encoded (chars : List (Char × Look)) : List (ℕ × Look) :=
  chars.flatMap fun entry => (charUnits entry.1).map (·, entry.2)

/-! ### What is shown so far -/

def Terminal.visible (s : Terminal) : List (Char × Look) :=
  Irc.visible s.result ++ s.buffer.map (·, s.style.look)

def Web.shown (s : Web) : List (ℕ × Look) :=
  Irc.shown s.result ++ s.buffer.map (·, s.format.look)

@[simp] theorem Terminal.style_flush (s : Terminal) : s.flush.style = s.style := by
  unfold Terminal.flush
  split <;> rfl

@[simp] theorem Terminal.buffer_flush (s : Terminal) : s.flush.buffer = [] := by
  unfold Terminal.flush
  split
  next h => exact h
  · rfl

theorem Terminal.visible_flush (s : Terminal) : Irc.visible s.flush.result = s.visible := by
  unfold Terminal.flush Terminal.visible
  split
  next h => simp [h]
  · simp [Irc.visible]

@[simp] theorem Web.format_flush (s : Web) : s.flush.format = s.format := by
  unfold Web.flush
  split <;> rfl

@[simp] theorem Web.buffer_flush (s : Web) : s.flush.buffer = [] := by
  unfold Web.flush
  split
  next h => exact h
  · rfl

theorem Web.shown_flush (s : Web) : Irc.shown s.flush.result = s.shown := by
  unfold Web.flush Web.shown
  split
  next h => simp [h]
  · simp [Irc.shown]

/-- The same look, and the same shown so far. -/
structure Alike (s : Terminal) (t : Web) : Prop where
  look : s.style.look = t.format.look
  shown : t.shown = encoded s.visible

variable {s : Terminal} {t : Web}

/-- Behind a flush the style may change. -/
theorem Alike.restyle (h : Alike s t) {style : Style} {format : Format}
    (hlook : style.look = format.look) :
    Alike { s.flush with style := style } { t.flush with format := format } where
  look := hlook
  shown := by
    have ht : Web.shown { t.flush with format := format } = t.shown := by
      rw [← t.shown_flush]
      simp [Web.shown]
    have hs : Terminal.visible { s.flush with style := style } = s.visible := by
      rw [← s.visible_flush]
      simp [Terminal.visible]
    rw [ht, hs, h.shown]

theorem Alike.push (h : Alike s t) (c : Char) :
    Alike { s with buffer := s.buffer ++ [c] } { t with buffer := t.buffer ++ charUnits c } where
  look := h.look
  shown := by
    have hshown := h.shown
    simp only [Web.shown, Terminal.visible, encoded, List.map_append, List.flatMap_append,
      ← List.append_assoc] at hshown ⊢
    rw [hshown]
    simp [h.look]

/-! ### The codes -/

theorem look_toggle (style : Style) (format : Format) (h : style.look = format.look) {c : Char}
    (hcode : isCode c = true) (hreset : c.toNat ≠ 15) (hcolour : c.toNat ≠ 3) :
    (style.toggle (flagOf c)).look = (format.code c.toNat).look := by
  have hcases : c.toNat = 2 ∨ c.toNat = 22 ∨ c.toNat = 29 ∨ c.toNat = 31 := by
    simp only [isCode, Bool.or_eq_true, beq_iff_eq] at hcode
    omega
  have hbold : style.addModifier.bold = format.bold := congrArg Look.bold h
  have hitalic : style.addModifier.italic = format.italic := congrArg Look.italic h
  have hunderline : style.addModifier.underlined = format.underline := congrArg Look.underline h
  have hinverse : style.addModifier.reversed = format.inverse := congrArg Look.inverse h
  have hforeground := congrArg Look.foreground h
  have hbackground := congrArg Look.background h
  rcases hcases with hc | hc | hc | hc
  · cases hvalue : format.bold <;>
      simp_all [flagOf, Format.code, Style.toggle, Style.look, Format.look, Modifier.contains,
        Modifier.put, Style.add, Style.remove]
  · cases hvalue : format.inverse <;>
      simp_all [flagOf, Format.code, Style.toggle, Style.look, Format.look, Modifier.contains,
        Modifier.put, Style.add, Style.remove]
  · cases hvalue : format.italic <;>
      simp_all [flagOf, Format.code, Style.toggle, Style.look, Format.look, Modifier.contains,
        Modifier.put, Style.add, Style.remove]
  · cases hvalue : format.underline <;>
      simp_all [flagOf, Format.code, Style.toggle, Style.look, Format.look, Modifier.contains,
        Modifier.put, Style.add, Style.remove]

/-- A number of a colour means the same place in both palettes. -/
theorem idxOf_colors (n : ℕ) : colors[n]?.map colors.idxOf = palette[n]?.map palette.idxOf := by
  by_cases h : n < 16
  · have hall : ∀ i < 16, colors[i]?.map colors.idxOf = palette[i]?.map palette.idxOf := by decide
    exact hall n h
  · have hcolors : colors[n]? = none := List.getElem?_eq_none (Nat.not_lt.mp h)
    have hpalette : palette[n]? = none := List.getElem?_eq_none (Nat.not_lt.mp h)
    rw [hcolors, hpalette]
    rfl

/-! ### Numbers -/

theorem isDigitUnit_toNat (c : Char) : isDigitUnit c.toNat = isAsciiDigit c := rfl

/-- The first unit of a character that is no digit is no digit either. -/
theorem takeWhile_units (c : Char) (chars : List Char) :
    (codeUnits (c :: chars)).takeWhile isDigitUnit =
      if isAsciiDigit c then c.toNat :: (codeUnits chars).takeWhile isDigitUnit else [] := by
  rcases charUnits_cases c with hunits | ⟨high, low, hunits, hhigh, -, hc⟩
  · rw [codeUnits_cons, hunits, List.singleton_append, List.takeWhile_cons, isDigitUnit_toNat]
  · have hunit : isDigitUnit high = false := by
      simp only [isDigitUnit, Bool.and_eq_false_iff, decide_eq_false_iff_not]
      omega
    have hchar : isAsciiDigit c = false := by
      simp only [isAsciiDigit, Bool.and_eq_false_iff, decide_eq_false_iff_not]
      omega
    rw [codeUnits_cons, hunits, hchar]
    simp [hunit]

theorem charUnits_digit {c : Char} (h : isAsciiDigit c = true) : charUnits c = [c.toNat] := by
  refine charUnits_of_lt ?_
  simp only [isAsciiDigit, Bool.and_eq_true, decide_eq_true_eq] at h
  omega

/-- The terminal reads the number that the web matches. -/
theorem number_units (chars : List Char) :
    (number chars).1 = (if upToTwo (codeUnits chars) = [] then none
        else some (decimal (upToTwo (codeUnits chars)))) ∧
      codeUnits (number chars).2 =
        (codeUnits chars).drop (upToTwo (codeUnits chars)).length := by
  unfold number upToTwo
  cases chars with
  | nil => exact ⟨rfl, rfl⟩
  | cons c chars =>
      rw [takeWhile_units]
      cases hc : isAsciiDigit c with
      | false => simp [digits, hc]
      | true =>
          cases chars with
          | nil => simp [digits, hc, charUnits_digit hc, decimal]
          | cons d chars =>
              rw [takeWhile_units]
              cases hd : isAsciiDigit d with
              | false => simp [digits, hc, hd, charUnits_digit hc, decimal]
              | true =>
                  simp [digits, hc, hd, charUnits_digit hc, charUnits_digit hd, decimal]

theorem upToTwo_eq_nil (chars : List Char) :
    upToTwo (codeUnits chars) = [] ↔ chars.head?.any isAsciiDigit = false := by
  unfold upToTwo
  cases chars with
  | nil => exact iff_of_true rfl rfl
  | cons c chars =>
      rw [takeWhile_units]
      cases hc : isAsciiDigit c with
      | false => simp [hc]
      | true => simp [hc]

/-! ### Colours -/

theorem look_colours (style : Style) (fg bg : Option Color) :
    ({ style with fg := fg, bg := bg } : Style).look =
      { style.look with
        foreground := fg.map colors.idxOf
        background := bg.map colors.idxOf } := rfl

theorem Format.look_colours (format : Format) (foreground background : Option String) :
    ({ format with foreground := foreground, background := background } : Format).look =
      { format.look with
        foreground := foreground.map palette.idxOf
        background := background.map palette.idxOf } := rfl

theorem look_foreground (style : Style) (fg : Option Color) :
    ({ style with fg := fg } : Style).look =
      { style.look with foreground := fg.map colors.idxOf } := rfl

theorem Format.look_foreground (format : Format) (foreground : Option String) :
    ({ format with foreground := foreground } : Format).look =
      { format.look with foreground := foreground.map palette.idxOf } := rfl

/-- No unit but the comma itself is the unit of a comma. -/
theorem codeUnits_comma {chars : List Char} {units : List ℕ} (h : codeUnits chars = 44 :: units) :
    ∃ after, chars = ',' :: after ∧ codeUnits after = units := by
  cases chars with
  | nil => cases h
  | cons c chars =>
      rw [codeUnits_cons] at h
      rcases charUnits_cases c with hunits | ⟨high, low, hunits, hhigh, -, -⟩
      · rw [hunits, List.singleton_append, List.cons.injEq] at h
        have hc : c = ',' := Char.toNat_inj.mp h.1
        exact ⟨chars, by rw [hc], h.2⟩
      · rw [hunits, List.cons_append, List.cons.injEq] at h
        omega

theorem colourMatch_plain {units : List ℕ} (hfirst : upToTwo units ≠ [])
    (hcomma : ∀ after, units.drop (upToTwo units).length ≠ 44 :: after) :
    colourMatch units = some (upToTwo units, none, (upToTwo units).length) := by
  unfold colourMatch
  dsimp only
  rw [if_neg hfirst]
  split
  next after hafter => exact absurd hafter (hcomma after)
  · rfl

theorem colourMatch_comma {units after : List ℕ} (hfirst : upToTwo units ≠ [])
    (hcomma : units.drop (upToTwo units).length = 44 :: after) :
    colourMatch units =
      if upToTwo after = [] then some (upToTwo units, none, (upToTwo units).length)
      else some (upToTwo units, some (upToTwo after),
        (upToTwo units).length + 1 + (upToTwo after).length) := by
  unfold colourMatch
  dsimp only
  rw [if_neg hfirst, hcomma]
  rfl

/-- A colour code changes style and format alike, and takes the same part of the text. -/
theorem colour_units (style : Style) (format : Format) (h : style.look = format.look)
    (chars : List Char) :
    (colour style chars).1.look = (format.colour (codeUnits chars)).1.look ∧
      codeUnits (colour style chars).2 =
        (codeUnits chars).drop (format.colour (codeUnits chars)).2 := by
  obtain ⟨hvalue, hrest⟩ := number_units chars
  unfold colour Format.colour
  cases hnumber : number chars with
  | mk value rest =>
      rw [hnumber] at hvalue hrest
      dsimp only at hvalue hrest
      by_cases hnone : upToTwo (codeUnits chars) = []
      · have hmatch : colourMatch (codeUnits chars) = none := by
          unfold colourMatch
          dsimp only
          rw [if_pos hnone]
        rw [if_pos hnone] at hvalue
        rw [hnone] at hrest
        rw [hvalue, hmatch]
        dsimp only
        rw [look_colours, Format.look_colours, h]
        exact ⟨rfl, hrest⟩
      · have hplain : ({ style with fg := colors[decimal (upToTwo (codeUnits chars))]? } :
            Style).look = ({ format with
              foreground := palette[decimal (upToTwo (codeUnits chars))]? } : Format).look := by
          rw [look_foreground, Format.look_foreground, h, idxOf_colors]
        rw [if_neg hnone] at hvalue
        rw [hvalue]
        dsimp only
        split
        next after =>
          have hsecond := number_units after
          have hcodes : (codeUnits chars).drop (upToTwo (codeUnits chars)).length =
              44 :: codeUnits after := hrest.symm
          rw [colourMatch_comma hnone hcodes]
          cases hdigit : after.head?.any isAsciiDigit with
          | false =>
              rw [if_pos ((upToTwo_eq_nil after).mpr hdigit), if_neg Bool.false_ne_true]
              exact ⟨hplain, hrest⟩
          | true =>
              have htwo : upToTwo (codeUnits after) ≠ [] := by
                rw [Ne, upToTwo_eq_nil, hdigit]
                exact Bool.true_eq_false_eq_False
              rw [if_neg htwo] at hsecond
              rw [if_neg htwo, if_pos rfl, hsecond.1, hsecond.2, look_colours]
              dsimp only
              rw [Format.look_colours, h, Option.bind_some, idxOf_colors, idxOf_colors,
                Nat.add_assoc, ← List.drop_drop, ← hrest, ← List.drop_drop]
              exact ⟨rfl, rfl⟩
        next hother =>
          rw [colourMatch_plain hnone ?_]
          · exact ⟨hplain, hrest⟩
          · intro units hunits
            rw [← hrest] at hunits
            obtain ⟨after, heq, -⟩ := codeUnits_comma hunits
            exact hother after heq

/-! ### Side by side -/

/-- A character that is no code, and is shown or left out by both. -/
theorem isShown_units {c : Char} (h : isCode c = false) {u : ℕ} (hu : u ∈ charUnits c) :
    [2, 3, 15, 22, 29, 31].contains u = false ∧
      (((32 ≤ u && (u < 127 || 159 < u)) || u = 9 || u = 10) =
        (!isControl c || c.toNat = 10 || c.toNat = 9)) := by
  rcases charUnits_cases c with hunits | ⟨high, low, hunits, hhigh, hlow, hc⟩
  · rw [hunits, List.mem_singleton] at hu
    subst hu
    simp only [isCode, Bool.or_eq_false_iff, beq_eq_false_iff_ne, ne_eq] at h
    constructor
    · simp only [List.contains_eq_mem, List.mem_cons, List.not_mem_nil, or_false,
        decide_eq_false_iff_not]
      omega
    · rw [Bool.eq_iff_iff]
      simp only [isControl, Bool.or_eq_true, Bool.and_eq_true, Bool.not_eq_true',
        Bool.or_eq_false_iff, Bool.and_eq_false_iff, decide_eq_true_eq, decide_eq_false_iff_not]
      omega
  · have hlarge : 0xD800 ≤ u := by
      rw [hunits] at hu
      simp only [List.mem_cons, List.not_mem_nil, or_false] at hu
      omega
    constructor
    · simp only [List.contains_eq_mem, List.mem_cons, List.not_mem_nil, or_false,
        decide_eq_false_iff_not]
      omega
    · rw [Bool.eq_iff_iff]
      simp only [isControl, Bool.or_eq_true, Bool.and_eq_true, Bool.not_eq_true',
        Bool.or_eq_false_iff, Bool.and_eq_false_iff, decide_eq_true_eq, decide_eq_false_iff_not]
      omega

theorem Web.read_units (t : Web) (shows : Bool) (front units : List ℕ)
    (h : ∀ u ∈ front, [2, 3, 15, 22, 29, 31].contains u = false ∧
      ((32 ≤ u && (u < 127 || 159 < u)) || u = 9 || u = 10) = shows) :
    t.read (front ++ units) =
      (if shows then { t with buffer := t.buffer ++ front } else t : Web).read units := by
  induction front generalizing t with
  | nil => cases shows <;> simp
  | cons u front ih =>
      obtain ⟨hcode, hshow⟩ := h u List.mem_cons_self
      have hrest := fun v hv => h v (List.mem_cons_of_mem u hv)
      rw [List.cons_append, Web.read, if_neg (by rw [hcode]; exact Bool.false_ne_true), hshow]
      cases shows with
      | false => exact ih t hrest
      | true =>
          rw [if_pos rfl, ih _ hrest]
          simp

theorem isCode_units {c : Char} (h : isCode c = true) :
    charUnits c = [c.toNat] ∧ [2, 3, 15, 22, 29, 31].contains c.toNat = true := by
  simp only [isCode, Bool.or_eq_true, beq_iff_eq] at h
  constructor
  · exact charUnits_of_lt (by omega)
  · simp only [List.contains_eq_mem, List.mem_cons, List.not_mem_nil, or_false, decide_eq_true_eq]
    omega

/-- The induction is on the length of the text: a colour code takes more than one character. -/
theorem Alike.read {s : Terminal} {t : Web} (h : Alike s t) (chars : List Char) :
    Alike (s.read chars) (t.read (codeUnits chars)) := by
  induction hn : chars.length using Nat.strong_induction_on generalizing chars s t with
  | _ n ih =>
      cases chars with
      | nil =>
          rw [Terminal.read, codeUnits_nil, Web.read]
          exact h
      | cons c chars =>
          subst hn
          have hlt : chars.length < (c :: chars).length := Nat.lt_succ_self _
          cases hcode : isCode c with
          | false =>
              rw [codeUnits_cons, Web.read_units t _ _ _ fun u => isShown_units hcode,
                Terminal.read, if_neg (by rw [hcode]; exact Bool.false_ne_true)]
              split
              next hshow =>
                exact ih _ hlt (h.push c) chars rfl
              next hshow =>
                exact ih _ hlt h chars rfl
          | true =>
              obtain ⟨hunits, hcontains⟩ := isCode_units hcode
              rw [codeUnits_cons, hunits, List.singleton_append, Web.read, if_pos hcontains,
                Terminal.read, if_pos hcode]
              by_cases hreset : c.toNat = 15
              · rw [if_pos hreset, if_neg (by omega)]
                refine ih _ hlt (h.restyle ?_) chars rfl
                rw [hreset]
                rfl
              · rw [if_neg hreset]
                by_cases hcolour : c.toNat = 3
                · have hlook : s.flush.style.look = t.flush.format.look := by
                    rw [s.style_flush, t.format_flush]
                    exact h.look
                  obtain ⟨hstyle, hrest⟩ := colour_units _ _ hlook chars
                  rw [if_pos hcolour, if_pos hcolour, ← hrest]
                  exact ih _ ((colour_length _ chars).trans_lt hlt) (h.restyle hstyle) _ rfl
                · rw [if_neg hcolour, if_neg hcolour]
                  refine ih _ hlt (h.restyle ?_) chars rfl
                  rw [s.style_flush, t.format_flush]
                  exact look_toggle _ _ h.look hcode hreset hcolour

/-! ### What is shown -/

/-- No control character is shown but newline and tab. -/
def Clean (chars : List (Char × Look)) : Prop :=
  ∀ entry ∈ chars, isControl entry.1 = true → entry.1 = '\n' ∨ entry.1 = '\t'

theorem Terminal.clean_restyle {s : Terminal} (h : Clean s.visible) (style : Style) :
    Clean (Terminal.visible { s.flush with style := style }) := by
  have hsame : Terminal.visible { s.flush with style := style } = s.visible := by
    rw [← s.visible_flush]
    simp [Terminal.visible]
  rwa [hsame]

theorem Terminal.clean_push {s : Terminal} (h : Clean s.visible) {c : Char}
    (hc : (!isControl c || c.toNat = 10 || c.toNat = 9) = true) :
    Clean (Terminal.visible { s with buffer := s.buffer ++ [c] }) := by
  intro entry hentry
  simp only [Terminal.visible, List.map_append, List.map_singleton, ← List.append_assoc,
    List.mem_append, List.mem_singleton] at hentry
  rcases hentry with hold | rfl
  · exact h entry (List.mem_append.mpr hold)
  · intro hcontrol
    simp only [hcontrol, Bool.not_true, Bool.false_or, Bool.or_eq_true, decide_eq_true_eq] at hc
    exact hc.imp Char.toNat_inj.mp Char.toNat_inj.mp

theorem Terminal.clean_read {s : Terminal} (h : Clean s.visible) (chars : List Char) :
    Clean (s.read chars).visible := by
  fun_induction Terminal.read s chars with
  | case1 s => exact h
  | case2 s c chars hcode hreset ih => exact ih (clean_restyle h _)
  | case3 s c chars hcode hreset hcolour ih => exact ih (clean_restyle h _)
  | case4 s c chars hcode hreset hcolour ih => exact ih (clean_restyle h _)
  | case5 s c chars hcode hshow ih => exact ih (clean_push h hshow)
  | case6 s c chars hcode hshow ih => exact ih h

theorem clean_ircSpans (text : String) : Clean (visible (ircSpans text)) := by
  have hread := Terminal.clean_read (s := ⟨[], .default, []⟩) nofun text.toList
  rwa [← Terminal.visible_flush] at hread

/-- Both formatters show the same characters with the same looks, and no control character among
them but newline and tab. -/
theorem formatters_agree (text : String) :
    shown (ircFormat (codeUnits text.toList)) = encoded (visible (ircSpans text)) ∧
      Clean (visible (ircSpans text)) ∧
      ∀ entry ∈ shown (ircFormat (codeUnits text.toList)),
        entry.1 < 32 ∨ (127 ≤ entry.1 ∧ entry.1 < 160) → entry.1 = 10 ∨ entry.1 = 9 := by
  have hstart : Alike ⟨[], .default, []⟩ ⟨[], plain, []⟩ := ⟨rfl, rfl⟩
  have hsame : shown (ircFormat (codeUnits text.toList)) = encoded (visible (ircSpans text)) := by
    have hread := hstart.read text.toList
    unfold ircFormat ircSpans
    rw [Web.shown_flush, Terminal.visible_flush]
    exact hread.shown
  refine ⟨hsame, clean_ircSpans text, ?_⟩
  intro entry hentry hcontrol
  rw [hsame, encoded, List.mem_flatMap] at hentry
  obtain ⟨⟨c, look⟩, hmem, hentry⟩ := hentry
  obtain ⟨u, hu, rfl⟩ := List.mem_map.mp hentry
  rcases charUnits_cases c with hunits | ⟨high, low, hunits, hhigh, hlow, -⟩
  · rw [hunits, List.mem_singleton] at hu
    subst hu
    have hc : isControl c = true := by
      simp only [isControl, Bool.or_eq_true, Bool.and_eq_true, decide_eq_true_eq]
      exact hcontrol
    rcases clean_ircSpans text _ hmem hc with rfl | rfl
    · exact .inl rfl
    · exact .inr rfl
  · rw [hunits] at hu
    simp only [List.mem_cons, List.not_mem_nil, or_false] at hu
    omega

end Irc

end GChat
