import Mathlib.Tactic.IntervalCases
import SpinFleet.Proofs.TomlReader
/-!
# Spelling — keys and values are read back

Whatever characters a text has, the style that is chosen for it can show it, and the reader gives the text back
(`Reader.string?_value`, `Reader.key?_key`).

Two things need care.  The reader cannot tell a quote of the text from a closing one before it has seen what comes next,
so the lemmas on bodies are about a reader that holds `run` quotes back; the writers never let a run grow beyond what
may stand before the closing quotes.  And a line end that opens a text of several lines is dropped by the reader, so
the writer must add one whenever the text itself could start with one.
-/
namespace SpinFleet.Toml.Reader

variable {s : Style} {c : Char} {cs rest : List Char} {run : Nat}

/-! ## Characters -/

theorem isShown_of_plain (h : ¬ (c.toNat < 0x20 ∨ c.toNat = 0x7F)) : isShown c := by
  simp only [isShown, Bool.or_eq_true, Bool.and_eq_true, decide_eq_true_eq, bne_iff_ne]
  omega

theorem isShown_of_not_control (h : isControl c = false) (hn : c ≠ '\n') : isShown c := by
  simp [isControl, isShown] at h ⊢
  grind

theorem newline?_eq_none (h : ∀ c ∈ cs.head?, c ≠ '\n' ∧ c ≠ '\r') : newline? cs = none := by
  unfold newline?
  split
  · exact absurd rfl (h '\n' rfl).1
  · exact absurd rfl (h '\r' rfl).2
  · rfl

theorem spare_lt_closing (s : Style) : spare s < closing s := by cases s <;> decide

theorem isMultiline_of_spare (h : 0 < spare s) : s.isMultiline := by cases s <;> first | rfl | cases h

theorem quote_of_hasEscapes (h : hasEscapes s) : quote s = '"' := by cases s <;> first | rfl | cases h

theorem body_of_hasEscapes (h : hasEscapes s) (cs : List Char) : s.body cs = escape s.isMultiline (spare s) 0 cs := by
  cases s <;> first | rfl | cases h

theorem body_of_not_hasEscapes (h : hasEscapes s = false) (cs : List Char) : s.body cs = cs := by
  cases s <;> first | rfl | cases h

/-! ## Steps of a body -/

/-- Quotes that are held back are part of the text once another character follows. -/
theorem body?_shown (hc : c ≠ quote s) (hrun : run < closing s) {shown : List Char} {skip : Nat}
    (h : shown? s c cs = some (shown, skip)) :
    body? s 0 run (c :: cs) =
      (body? s skip 0 cs).map fun (body, rest) => (.replicate run (quote s) ++ shown ++ body, rest) := by
  rw [body?, if_neg hc, if_neg (Nat.not_le.2 hrun), h]
  rfl

/-- A quote that is not the last one there may be is held back. -/
theorem body?_quote (hrun : run + 1 ≤ spare s) : body? s 0 run (quote s :: cs) = body? s 0 (run + 1) cs := by
  have hlt := spare_lt_closing s
  rw [body?, if_pos rfl, if_neg (by omega)]

theorem body?_skip (run : Nat) (xs : List Char) : body? s xs.length run (xs ++ rest) = body? s 0 run rest := by
  induction xs with
  | nil => rfl
  | cons x xs ih => exact ih

theorem body?_closing (hrun : run ≤ spare s) (hrest : rest.head? ≠ some (quote s)) :
    body? s 0 run (s.delimiter ++ rest) = some (.replicate run (quote s), rest) := by
  have hend : ∀ n, closing s ≤ n → body? s 0 n rest = some (.replicate (n - closing s) (quote s), rest) := by
    intro n hn
    cases rest with
    | nil => rw [body?, if_pos hn]
    | cons c rest => rw [body?, if_neg fun hc => hrest (congrArg some hc), if_pos hn]
  cases s with
  | basic | literal =>
    obtain rfl : run = 0 := Nat.le_zero.1 hrun
    rfl
  | multilineBasic | multilineLiteral =>
    have hrun : run ≤ 2 := hrun
    interval_cases run
    · exact hend 3 (by decide)
    · exact hend 4 (by decide)
    · rfl

/-! ## Escapes -/

theorem body?_escaped (hs : hasEscapes s) (hrun : run < closing s) {xs : List Char}
    (h : escaped? s.isMultiline (xs ++ rest) = some ([c], xs.length)) :
    body? s 0 run ('\\' :: xs ++ rest) =
      (body? s 0 0 rest).map fun (body, rest) => (.replicate run (quote s) ++ c :: body, rest) := by
  have hshown : shown? s '\\' (xs ++ rest) = some ([c], xs.length) := by
    rw [shown?, if_pos (by simp [hs]), h]
  rw [List.cons_append, body?_shown (by rw [quote_of_hasEscapes hs]; decide) hrun hshown, body?_skip]
  simp

theorem codePoint?_hex (h : c.toNat < 128) :
    codePoint? 4 ((Checksum.hex 4 c.toNat).map Char.toUpper ++ rest) = some c := by
  have hdigits : ∀ n < 128, ((Checksum.hex 4 n).map Char.toUpper).length = 4 ∧
      codePoint? 4 ((Checksum.hex 4 n).map Char.toUpper) = some (Char.ofNat n) := by decide
  obtain ⟨hlength, hvalue⟩ := hdigits c.toNat h
  rw [Char.ofNat_toNat] at hvalue
  rw [← hvalue]
  unfold codePoint?
  rw [List.take_left' hlength, List.take_of_length_le hlength.le]

theorem controlEscape_escapes (multiline : Bool) (h : c.toNat < 0x20 ∨ c.toNat = 0x7F) :
    ∃ xs, controlEscape c = '\\' :: xs ∧ ∀ rest, escaped? multiline (xs ++ rest) = some ([c], xs.length) := by
  unfold controlEscape
  split
  case h_6 =>
    refine ⟨_, rfl, fun rest => ?_⟩
    rw [List.cons_append, escaped?, codePoint?_hex (by omega)]
    rfl
  all_goals exact ⟨_, rfl, fun _ => rfl⟩

/-- What is written for a character: itself if it is one of the quotes that are allowed, an escape, or itself. -/
theorem escape_cons (multiline : Bool) (allowed run : Nat) (c : Char) (cs : List Char) :
    (c = '"' ∧ run < allowed ∧ escape multiline allowed run (c :: cs) = '"' :: escape multiline allowed (run + 1) cs) ∨
    (∃ xs, (∀ rest, escaped? multiline (xs ++ rest) = some ([c], xs.length)) ∧
      escape multiline allowed run (c :: cs) = '\\' :: xs ++ escape multiline allowed 0 cs) ∨
    (c ≠ '"' ∧ c ≠ '\\' ∧ (isShown c ∨ multiline ∧ c = '\n') ∧
      escape multiline allowed run (c :: cs) = c :: escape multiline allowed 0 cs) := by
  rw [escape]
  by_cases hq : c = '"'
  · subst hq
    rw [if_pos rfl]
    by_cases hrun : allowed ≤ run
    · rw [if_pos hrun]
      exact .inr (.inl ⟨['"'], fun _ => rfl, rfl⟩)
    · rw [if_neg hrun]
      exact .inl ⟨rfl, by omega, rfl⟩
  rw [if_neg hq]
  by_cases hb : c = '\\'
  · subst hb
    rw [if_pos rfl]
    exact .inr (.inl ⟨['\\'], fun _ => rfl, rfl⟩)
  rw [if_neg hb]
  by_cases hn : c = '\n' ∧ multiline
  · rw [if_pos hn, hn.1]
    exact .inr (.inr ⟨by decide, by decide, .inr ⟨hn.2, rfl⟩, rfl⟩)
  rw [if_neg hn]
  by_cases hc : c.toNat < 0x20 ∨ c.toNat = 0x7F
  · obtain ⟨xs, hxs, hread⟩ := controlEscape_escapes multiline hc
    rw [if_pos hc, hxs]
    exact .inr (.inl ⟨xs, hread, rfl⟩)
  · rw [if_neg hc]
    exact .inr (.inr ⟨hq, hb, .inl (isShown_of_plain hc), rfl⟩)

/-! ## Bodies -/

theorem body?_itself (hc : c ≠ quote s) (hb : hasEscapes s → c ≠ '\\') (hshown : isShown c ∨ s.isMultiline ∧ c = '\n')
    (hrun : run < closing s) : body? s 0 run (c :: cs) =
      (body? s 0 0 cs).map fun (body, rest) => (.replicate run (quote s) ++ c :: body, rest) := by
  have h : shown? s c cs = some ([c], 0) := by
    rw [shown?, if_neg (by simpa using hb)]
    rcases hshown with hshown | ⟨hm, rfl⟩
    · rw [if_pos hshown]
    · rw [if_neg (by decide), if_pos (by simp [hm])]
  rw [body?_shown hc hrun h]
  simp

/-- **An escaped text is read back**, together with the quotes that were held back. -/
theorem body?_escape (hs : hasEscapes s) (hrest : rest.head? ≠ some (quote s)) (cs : List Char) (run : Nat)
    (hrun : run ≤ spare s) :
    body? s 0 run (escape s.isMultiline (spare s) run cs ++ (s.delimiter ++ rest)) =
      some (.replicate run (quote s) ++ cs, rest) := by
  induction cs generalizing run with
  | nil => rw [escape, List.nil_append, body?_closing hrun hrest, List.append_nil]
  | cons c cs ih =>
    have hclosing : run < closing s := Nat.lt_of_le_of_lt hrun (spare_lt_closing s)
    have hq := quote_of_hasEscapes hs
    rcases escape_cons s.isMultiline (spare s) run c cs with ⟨hc, hlt, h⟩ | ⟨xs, hread, h⟩ | ⟨hc, hb, hshown, h⟩
    · -- The reader holds back the quotes that the writer has counted.
      rw [h, List.cons_append, ← hq, body?_quote hlt, ih _ hlt, List.replicate_succ', hc, hq, List.append_assoc]
      rfl
    · rw [h, List.append_assoc, body?_escaped hs hclosing (hread _), ih 0 (Nat.zero_le _)]
      rfl
    · rw [h, List.cons_append, body?_itself (hq ▸ hc) (fun _ => hb) hshown hclosing, ih 0 (Nat.zero_le _)]
      rfl

/-- **A text that is shown as it is is read back**, if its quotes are few in a row. -/
theorem body?_verbatim (hs : hasEscapes s = false) (hrest : rest.head? ≠ some (quote s)) (cs : List Char) (run : Nat)
    (hrun : run ≤ spare s) (hquotes : longestRun (quote s) run cs ≤ spare s)
    (hcs : ∀ c ∈ cs, isShown c ∨ s.isMultiline ∧ c = '\n') :
    body? s 0 run (cs ++ (s.delimiter ++ rest)) = some (.replicate run (quote s) ++ cs, rest) := by
  induction cs generalizing run with
  | nil => rw [List.nil_append, body?_closing hrun hrest, List.append_nil]
  | cons c cs ih =>
    have hclosing : run < closing s := Nat.lt_of_le_of_lt hrun (spare_lt_closing s)
    obtain ⟨hshown, htail⟩ := List.forall_mem_cons.1 hcs
    rw [longestRun] at hquotes
    by_cases hc : c = quote s
    · subst hc
      rw [if_pos rfl, Nat.max_le] at hquotes
      rw [List.cons_append, body?_quote hquotes.1, ih _ hquotes.1 hquotes.2 htail, List.replicate_succ',
        List.append_assoc]
      rfl
    · rw [if_neg hc] at hquotes
      rw [List.cons_append, body?_itself hc (by simp [hs]) hshown hclosing, ih 0 (Nat.zero_le _) hquotes htail]
      rfl

/-! ## Strings -/

def Fits (s : Style) (cs : List Char) : Prop :=
  hasEscapes s = false →
    longestRun (quote s) 0 cs ≤ spare s ∧ ∀ c ∈ cs, isShown c ∨ s.isMultiline ∧ c = '\n'

theorem body?_body (h : Fits s cs) (hrest : rest.head? ≠ some (quote s)) :
    body? s 0 0 (s.body cs ++ (s.delimiter ++ rest)) = some (cs, rest) := by
  cases hs : hasEscapes s with
  | true => rw [body_of_hasEscapes hs, body?_escape hs hrest cs 0 (Nat.zero_le _), List.replicate_zero, List.nil_append]
  | false =>
    rw [body_of_not_hasEscapes hs, body?_verbatim hs hrest cs 0 (Nat.zero_le _) (h hs).1 (h hs).2, List.replicate_zero,
      List.nil_append]

theorem body_cons (h : Fits s (c :: cs)) : ∃ x xs, s.body (c :: cs) = x :: xs ∧
    (x = quote s ∧ s.isMultiline ∨ x ≠ quote s ∧ (x = '\\' ∨ x = c ∧ (isShown c ∨ s.isMultiline ∧ c = '\n'))) := by
  cases hs : hasEscapes s with
  | true =>
    rw [body_of_hasEscapes hs, quote_of_hasEscapes hs]
    rcases escape_cons s.isMultiline (spare s) 0 c cs with ⟨-, hlt, hw⟩ | ⟨xs, -, hw⟩ | ⟨hc, -, hshown, hw⟩
    · exact ⟨_, _, hw, .inl ⟨rfl, isMultiline_of_spare hlt⟩⟩
    · exact ⟨_, _, hw, .inr ⟨by decide, .inl rfl⟩⟩
    · exact ⟨_, _, hw, .inr ⟨hc, .inr ⟨rfl, hshown⟩⟩⟩
  | false =>
    obtain ⟨hquotes, hshown⟩ := h hs
    refine ⟨c, cs, body_of_not_hasEscapes hs _, ?_⟩
    by_cases hc : c = quote s
    · rw [longestRun, if_pos hc, Nat.max_le] at hquotes
      exact .inl ⟨hc, isMultiline_of_spare hquotes.1⟩
    · exact .inr ⟨hc, .inr ⟨rfl, hshown c List.mem_cons_self⟩⟩

theorem body_single (h : Fits s cs) (hs : s.isMultiline = false) (hrest : rest.head? ≠ some (quote s)) (r : List Char) :
    s.body cs ++ quote s :: rest ≠ quote s :: quote s :: r := by
  cases cs with
  | nil =>
    rw [show s.body [] = [] by cases s <;> rfl, List.nil_append]
    intro heq
    rw [(List.cons.inj heq).2] at hrest
    exact hrest rfl
  | cons c cs =>
    obtain ⟨x, xs, hw, ⟨-, hm⟩ | ⟨hx, -⟩⟩ := body_cons h
    · exact absurd hm (by simp [hs])
    · rw [hw]
      exact fun heq => hx (List.cons.inj heq).1

/-- A line end is dropped exactly if one was added. -/
theorem newline?_body (h : Fits s cs) {xs : List Char} (hxs : xs.head? = some (quote s)) :
    newline? (s.body cs ++ xs) = none ∨ cs.contains '\n' := by
  by_cases hn : cs.contains '\n'
  · exact .inr hn
  refine .inl (newline?_eq_none fun x hx => ?_)
  have hquote : quote s ≠ '\n' ∧ quote s ≠ '\r' := by cases s <;> decide
  cases cs with
  | nil =>
    rw [show s.body [] = [] by cases s <;> rfl, List.nil_append, hxs] at hx
    exact Option.some.inj hx ▸ hquote
  | cons c cs =>
    obtain ⟨y, ys, hw, hy⟩ := body_cons h
    rw [hw] at hx
    obtain rfl : y = x := Option.some.inj hx
    rcases hy with ⟨rfl, -⟩ | ⟨-, rfl | ⟨rfl, hshown⟩⟩
    · exact hquote
    · decide
    · rcases hshown with hshown | ⟨-, rfl⟩
      · exact ⟨fun hc => absurd (hc ▸ hshown) (by decide), fun hc => absurd (hc ▸ hshown) (by decide)⟩
      · simp at hn

theorem opening?_single (hs : s.isMultiline = false) (h : ∀ r, cs ≠ quote s :: quote s :: r) :
    opening? (quote s :: cs) = some (s, cs) := by
  cases s with
  | basic => exact opening?.eq_2 cs fun r hr => h r hr
  | literal => exact opening?.eq_4 cs fun r hr => h r hr
  | multilineBasic | multilineLiteral => cases hs

theorem opening?_write (h : Fits s cs) (hrest : rest.head? ≠ some (quote s)) :
    opening? (s.write cs ++ rest) = some (s, s.body cs ++ (s.delimiter ++ rest)) := by
  have hwrite : s.write cs ++ rest = s.delimiter ++
      ((if s.isMultiline && cs.contains '\n' then ['\n'] else []) ++ (s.body cs ++ (s.delimiter ++ rest))) := by
    simp only [Style.write, List.append_assoc]
  rw [hwrite]
  cases hs : s.isMultiline with
  | false =>
    have hd : s.delimiter = [quote s] := by cases s <;> first | rfl | cases hs
    rw [Bool.false_and, if_neg (by decide), hd]
    exact opening?_single hs (body_single h hs hrest)
  | true =>
    have hopening (cs : List Char) : opening? (s.delimiter ++ cs) = some (s, (newline? cs).getD cs) := by
      cases s <;> first | rfl | cases hs
    have hquote : (s.delimiter ++ rest).head? = some (quote s) := by cases s <;> rfl
    rw [hopening, Bool.true_and]
    split
    case isTrue => rfl
    case isFalse hn => rw [List.nil_append, (newline?_body h hquote).resolve_right hn, Option.getD_none]

/-- **A string is read back**, in every style that fits. -/
theorem string?_write (h : Fits s cs) (hrest : rest.head? ≠ some (quote s)) :
    string? (s.write cs ++ rest) = some (String.ofList cs, rest) := by
  simp [string?, opening?_write h hrest, body?_body h hrest]

/-! ## The chosen styles -/

/-- What a text may contain for a style without escapes. -/
def Suits (s : Style) (t : Traits) : Prop :=
  hasEscapes s = false → t.control = false ∧ t.singleQuotes ≤ spare s ∧ (t.newline → s.isMultiline)

theorem fits_of_suits (h : Suits s (traits cs)) : Fits s cs := by
  intro hs
  obtain ⟨hcontrol, hquotes, hnewline⟩ := h hs
  have hq : quote s = '\'' := by cases s <;> first | rfl | cases hs
  refine ⟨hq ▸ hquotes, fun c hc => ?_⟩
  by_cases hn : c = '\n'
  · exact .inr ⟨hnewline (List.contains_iff_mem.2 (hn ▸ hc)), hn⟩
  · have hnone : ∀ x ∈ cs, isControl x = false := by simpa [traits] using hcontrol
    exact .inl (isShown_of_not_control (hnone c hc) hn)

theorem suits_valueStyle (t : Traits) : Suits (valueStyle t) t := by
  intro hs
  unfold valueStyle at hs ⊢
  split_ifs at hs ⊢ with h₁ h₂ h₃ h₄ h₅ <;> simp_all [hasEscapes, spare, Style.isMultiline]

theorem suits_keyStyle (t : Traits) : Suits (keyStyle t) t := by
  intro hs
  unfold keyStyle at hs ⊢
  split_ifs at hs ⊢ with h₁ h₂ h₃ <;> simp_all [hasEscapes, spare, Style.isMultiline]

theorem keyStyle_single (t : Traits) : (keyStyle t).isMultiline = false := by
  unfold keyStyle
  split_ifs <;> rfl

/-! ## Keys and values -/

def isStart (c : Char) : Bool := isKeyChar c || c == '"' || c == '\''

/-- A text that does not go on with what was written before it. -/
def Stops (rest : List Char) : Prop := ∀ c ∈ rest.head?, isStart c = false

theorem Stops.not_quote (h : Stops rest) (s : Style) : rest.head? ≠ some (quote s) := by
  intro hq
  have hstart := h _ hq
  cases s <;> cases hstart

theorem Stops.not_keyChar (h : Stops rest) : rest.takeWhile isKeyChar = [] ∧ rest.dropWhile isKeyChar = rest := by
  cases rest with
  | nil => exact ⟨rfl, rfl⟩
  | cons c rest =>
    have hc : isKeyChar c = false := by
      have := h c rfl
      simp_all [isStart]
    simp [hc]

theorem isKeyChar_of_isBare (h : isBare c) : isKeyChar c := by
  unfold isBare at h
  delta Char.isAlphanum Char.isAlpha Char.isUpper Char.isLower Char.isDigit at h
  simp only [isKeyChar, Char.le_def]
  grind

/-- **A value is read back**, whatever characters it has. -/
theorem string?_value (v : String) (h : Stops rest) : string? (value v ++ rest) = some (v, rest) := by
  have hfits := fits_of_suits (suits_valueStyle (traits v.toList))
  rw [value, string?_write hfits (h.not_quote _), String.ofList_toList]

/-- **A key is read back**, whatever characters it has. -/
theorem key?_key (k : String) (h : Stops rest) : key? (key k ++ rest) = some (k, rest) := by
  unfold key
  dsimp only
  split
  case isTrue hbare =>
    rw [Bool.and_eq_true, List.all_eq_true] at hbare
    have hall : ∀ c ∈ k.toList, isKeyChar c := fun c hc => isKeyChar_of_isBare (hbare.2 c hc)
    obtain ⟨htake, hdrop⟩ := h.not_keyChar
    have hsome : k.toList ≠ [] := by simpa using hbare.1
    rw [key?, List.takeWhile_append_of_pos hall, htake, List.dropWhile_append_of_pos hall, hdrop, List.append_nil]
    split
    · exact absurd ‹_› hsome
    · rw [String.ofList_toList]
      rfl
  case isFalse =>
    have hfits := fits_of_suits (suits_keyStyle (traits k.toList))
    have hq := h.not_quote (keyStyle (traits k.toList))
    have htake : ((keyStyle (traits k.toList)).write k.toList ++ rest).takeWhile isKeyChar = [] := by
      cases keyStyle (traits k.toList) <;> rfl
    simp [key?, htake, opening?_write hfits hq, string?_write hfits hq, keyStyle_single, String.ofList_toList]

theorem key_cons (k : String) : ∃ c cs, key k = c :: cs ∧ isStart c := by
  unfold key
  dsimp only
  split
  case isTrue hbare =>
    rw [Bool.and_eq_true, List.all_eq_true] at hbare
    cases hk : k.toList with
    | nil => simp [hk] at hbare
    | cons c cs =>
      have hc := isKeyChar_of_isBare (hbare.2 c (hk ▸ List.mem_cons_self))
      exact ⟨c, cs, rfl, by simp [isStart, hc]⟩
  case isFalse => cases keyStyle (traits k.toList) <;> exact ⟨_, _, rfl, rfl⟩

theorem value_cons (v : String) : ∃ c cs, value v = c :: cs ∧ isStart c := by
  unfold value
  cases valueStyle (traits v.toList) <;> exact ⟨_, _, rfl, rfl⟩

end SpinFleet.Toml.Reader
