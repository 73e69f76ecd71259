import PlotMiner.Proofs.Json.Rendering

/-!
# Texts that are cut off

What is read from a text is read from every longer text as well, up to a number at its end, which
more digits may prolong. The text of an object that lacks its end is therefore no document: the
reader would have to be done before the last token, or with a number
(`Document.parse?_eq_none_of_truncated`).
-/

namespace PlotMiner.Json

/-- A scanner that leaves something over does not look beyond what it scanned. -/
def Stable {α : Type} (scan : List Char → Option (α × List Char)) : Prop :=
  ∀ {cs rest : List Char} {a : α}, scan cs = some (a, rest) → rest ≠ [] →
    ∀ more, scan (cs ++ more) = some (a, rest ++ more)

theorem Stable.map {α β : Type} {scan : List Char → Option (α × List Char)} (h : Stable scan)
    (f : α → β) : Stable fun cs => (scan cs).map fun x => (f x.1, x.2) := by
  intro cs rest b hscanned hleft more
  obtain ⟨⟨a, rest'⟩, hfirst, hsame⟩ := Option.map_eq_some_iff.1 hscanned
  obtain ⟨rfl, rfl⟩ := Prod.mk.inj hsame
  simp only [h hfirst hleft more, Option.map_some]

theorem scanDigits1_eq_some_iff {cs rest : List Char} {digits : List Nat} :
    scanDigits1 cs = some (digits, rest) ↔ scanDigits cs = (digits, rest) ∧ digits ≠ [] := by
  rw [scanDigits1]
  rcases scanDigits cs with ⟨_ | ⟨d, ds⟩, after⟩
  · simp only [Prod.mk.injEq, reduceCtorEq, false_iff]
    rintro ⟨⟨rfl, -⟩, hnonempty⟩
    exact hnonempty rfl
  · simp only [Option.some.injEq, Prod.mk.injEq]
    constructor
    · rintro ⟨rfl, rfl⟩
      exact ⟨⟨rfl, rfl⟩, List.cons_ne_nil d ds⟩
    · exact And.left

theorem scanDigits_append {cs : List Char} (h : cs.dropWhile Char.isDigit ≠ []) (more : List Char) :
    scanDigits (cs ++ more) = ((scanDigits cs).1, (scanDigits cs).2 ++ more) := by
  have hbeyond : (cs ++ more).dropWhile Char.isDigit = cs.dropWhile Char.isDigit ++ more := by
    rw [List.dropWhile_append, if_neg (by simpa using h)]
  have hdigits : (cs ++ more).takeWhile Char.isDigit = cs.takeWhile Char.isDigit := by
    have hboth : (cs ++ more).takeWhile Char.isDigit ++ (cs ++ more).dropWhile Char.isDigit =
        cs.takeWhile Char.isDigit ++ cs.dropWhile Char.isDigit ++ more := by
      rw [List.takeWhile_append_dropWhile, List.takeWhile_append_dropWhile]
    rw [hbeyond, List.append_assoc] at hboth
    exact List.append_cancel_right hboth
  rw [scanDigits, hdigits, hbeyond, scanDigits]

theorem stable_scanDigits1 : Stable scanDigits1 := by
  intro cs rest digits h hleft more
  obtain ⟨hscanned, hnonempty⟩ := scanDigits1_eq_some_iff.1 h
  have hbeyond : cs.dropWhile Char.isDigit = rest := congrArg Prod.snd hscanned
  refine scanDigits1_eq_some_iff.2 ⟨?_, hnonempty⟩
  rw [scanDigits_append (hbeyond ▸ hleft), hscanned]

theorem stable_scanInteger : Stable scanInteger := by
  intro cs rest digits h hleft more
  unfold scanInteger at h ⊢
  split at h
  case h_1 => cases h
  case h_2 hnoZero =>
    rw [stable_scanDigits1 h hleft more]
    split
    case h_1 hzero =>
      obtain ⟨rfl, -⟩ := Prod.mk.inj (Option.some.inj hzero)
      exact absurd h (hnoZero _ _ _)
    case h_2 => rfl

theorem stable_scanFraction : Stable scanFraction := by
  intro cs rest digits h hleft more
  unfold scanFraction at h
  split at h
  case h_1 cs => exact stable_scanDigits1 h hleft more
  case h_2 hnoPoint =>
    obtain ⟨rfl, rfl⟩ := Prod.mk.inj (Option.some.inj h)
    obtain ⟨c, cs, rfl⟩ := List.exists_cons_of_ne_nil hleft
    rw [List.cons_append]
    unfold scanFraction
    split
    case h_1 hsame =>
      obtain ⟨rfl, -⟩ := List.cons.inj hsame
      exact absurd rfl (hnoPoint cs)
    case h_2 => rfl

theorem stable_scanExponent : Stable scanExponent := by
  intro cs rest e h hleft more
  cases cs with
  | nil =>
    obtain ⟨-, rfl⟩ := Prod.mk.inj (Option.some.inj h)
    exact absurd rfl hleft
  | cons c cs =>
    rw [List.cons_append]
    simp only [scanExponent] at h ⊢
    split at h
    case isTrue hmark =>
      rw [if_pos hmark]
      split at h
      case h_1 => exact stable_scanDigits1.map (fun digits => some (false, digits)) h hleft more
      case h_2 => exact stable_scanDigits1.map (fun digits => some (true, digits)) h hleft more
      case h_3 hnoPlus hnoMinus =>
        cases cs with
        | nil => simp [scanDigits1, scanDigits] at h
        | cons d cs =>
          have hscanned := stable_scanDigits1.map (fun digits => some (false, digits)) h hleft more
          rw [List.cons_append] at hscanned ⊢
          split
          case h_1 hsame =>
            obtain ⟨rfl, -⟩ := List.cons.inj hsame
            exact absurd rfl (hnoPlus cs)
          case h_2 hsame =>
            obtain ⟨rfl, -⟩ := List.cons.inj hsame
            exact absurd rfl (hnoMinus cs)
          case h_3 => exact hscanned
    case isFalse hnoMark =>
      obtain ⟨rfl, rfl⟩ := Prod.mk.inj (Option.some.inj h)
      rw [if_neg hnoMark]
      rfl

theorem stable_scanNumeral (negative : Bool) : Stable (scanNumeral negative) := by
  intro cs rest l h hleft more
  simp only [scanNumeral, Option.bind_eq_bind, Option.bind_eq_some_iff, Prod.exists] at h ⊢
  obtain ⟨i, r₁, h₁, f, r₂, h₂, e, r₃, h₃, h⟩ := h
  obtain ⟨rfl, rfl⟩ := Prod.mk.inj (Option.some.inj h)
  -- each part leaves at least as much as the parts after it
  have hleft₂ : r₂ ≠ [] := by
    rintro rfl
    exact hleft (List.length_eq_zero_iff.1 (Nat.le_zero.1 (length_le_of_scanExponent h₃)))
  have hleft₁ : r₁ ≠ [] := by
    rintro rfl
    exact hleft₂ (List.length_eq_zero_iff.1 (Nat.le_zero.1 (length_le_of_scanFraction h₂)))
  exact ⟨i, _, stable_scanInteger h₁ hleft₁ more, f, _, stable_scanFraction h₂ hleft₂ more, e, _,
    stable_scanExponent h₃ hleft more, rfl⟩

theorem scanString_append {cs rest : List Char} {pieces : List Piece}
    (h : scanString cs = some (pieces, rest)) (more : List Char) :
    scanString (cs ++ more) = some (pieces, rest ++ more) := by
  fun_induction scanString cs generalizing pieces rest
  case case1 | case5 => cases h
  case case2 =>
    obtain ⟨rfl, rfl⟩ := Prod.mk.inj (Option.some.inj h)
    rw [List.cons_append, scanString]
  case case3 ih =>
    simp only [Option.bind_eq_bind, Option.bind_eq_some_iff, Prod.exists] at h
    obtain ⟨n, hunit, p, r, hscanned, h⟩ := h
    obtain ⟨rfl, rfl⟩ := Prod.mk.inj (Option.some.inj h)
    simp only [List.cons_append, scanString_unit hunit, ih hscanned]
    rfl
  case case4 ih =>
    simp only [Option.bind_eq_bind, Option.bind_eq_some_iff, Prod.exists] at h
    obtain ⟨c, hsimple, p, r, hscanned, h⟩ := h
    obtain ⟨rfl, rfl⟩ := Prod.mk.inj (Option.some.inj h)
    simp only [List.cons_append, scanString_simple hsimple, ih hscanned]
    rfl
  case case6 hquote _ _ hplain ih =>
    simp only [Option.bind_eq_bind, Option.bind_eq_some_iff, Prod.exists] at h
    obtain ⟨p, r, hscanned, h⟩ := h
    obtain ⟨rfl, rfl⟩ := Prod.mk.inj (Option.some.inj h)
    obtain ⟨hvisible, hslash⟩ := not_or.1 hplain
    rw [List.cons_append, scanString_plain hvisible hquote hslash, ih hscanned]
    rfl

theorem exists_digit_of_scanNumeral {negative : Bool} {cs rest : List Char} {l : Numeral}
    (h : scanNumeral negative cs = some (l, rest)) :
    ∃ c cs', cs = c :: cs' ∧ c.isDigit = true := by
  simp only [scanNumeral, Option.bind_eq_bind, Option.bind_eq_some_iff, Prod.exists] at h
  obtain ⟨digits, after, hinteger, -⟩ := h
  have hscanned : scanDigits1 cs = some (digits, after) := by
    unfold scanInteger at hinteger
    split at hinteger
    case h_1 => cases hinteger
    case h_2 => exact hinteger
  obtain ⟨hscanned, hnonempty⟩ := scanDigits1_eq_some_iff.1 hscanned
  have hfirst : (scanDigits cs).1 ≠ [] := hscanned ▸ hnonempty
  cases cs with
  | nil => exact absurd rfl hfirst
  | cons c cs =>
    refine ⟨c, cs, rfl, ?_⟩
    cases hdigit : c.isDigit with
    | true => rfl
    | false => simp [scanDigits, hdigit] at hfirst

theorem nextToken_append {cs rest : List Char} {t : Token} (h : nextToken cs = some (t, rest))
    (hleft : rest ≠ [] ∨ ∀ l, t ≠ .number l) (more : List Char) :
    nextToken (cs ++ more) = some (t, rest ++ more) := by
  have hunfinished {negative : Bool} {cs : List Char}
      (h : (scanNumeral negative cs).map (fun x => (Token.number x.1, x.2)) = some (t, rest)) :
      rest ≠ [] := by
    obtain ⟨⟨l, r⟩, -, hsame⟩ := Option.map_eq_some_iff.1 h
    exact hleft.resolve_right fun hother => hother l (Prod.mk.inj hsame).1.symm
  unfold nextToken at h
  split at h
  case h_10 cs =>
    obtain ⟨⟨pieces, r⟩, hscanned, hsame⟩ := Option.map_eq_some_iff.1 h
    obtain ⟨rfl, rfl⟩ := Prod.mk.inj hsame
    rw [List.cons_append, nextToken, scanString_append hscanned]
    rfl
  case h_11 cs =>
    rw [List.cons_append, nextToken]
    exact Stable.map (stable_scanNumeral true) Token.number h (hunfinished h) more
  case h_12 =>
    obtain ⟨⟨l, r⟩, hscanned, -⟩ := Option.map_eq_some_iff.1 h
    obtain ⟨c, cs, rfl, hdigit⟩ := exists_digit_of_scanNumeral hscanned
    rw [List.cons_append, nextToken_digit hdigit]
    exact Stable.map (stable_scanNumeral false) Token.number h (hunfinished h) more
  all_goals
    obtain ⟨rfl, rfl⟩ := Prod.mk.inj (Option.some.inj h)
    rfl

/-- A number is read from a text, so a number is read from every text that starts like it. -/
theorem number_of_nextToken {cs rest : List Char} {l : Numeral}
    (h : nextToken cs = some (.number l, rest)) {more after : List Char} {t : Token}
    (h' : nextToken (cs ++ more) = some (t, after)) : ∃ l', t = .number l' := by
  have hstarts : ∃ c cs', cs = c :: cs' ∧ (c = '-' ∨ c.isDigit = true) := by
    unfold nextToken at h
    split at h
    case h_11 cs => exact ⟨'-', cs, rfl, .inl rfl⟩
    case h_12 =>
      obtain ⟨⟨l, r⟩, hscanned, -⟩ := Option.map_eq_some_iff.1 h
      obtain ⟨c, cs, rfl, hdigit⟩ := exists_digit_of_scanNumeral hscanned
      exact ⟨c, cs, rfl, .inr hdigit⟩
    all_goals simp at h
  obtain ⟨c, cs, rfl, rfl | hdigit⟩ := hstarts
  · rw [List.cons_append, nextToken] at h'
    obtain ⟨⟨l, r⟩, -, hsame⟩ := Option.map_eq_some_iff.1 h'
    exact ⟨l, (Prod.mk.inj hsame).1.symm⟩
  · rw [List.cons_append, nextToken_digit hdigit] at h'
    obtain ⟨⟨l, r⟩, -, hsame⟩ := Option.map_eq_some_iff.1 h'
    exact ⟨l, (Prod.mk.inj hsame).1.symm⟩

theorem exists_nextToken {c : Char} {cs : List Char} {ts : List Token}
    (hnoSpace : ¬ isSpace c = true) (h : tokens? (c :: cs) = some ts) :
    ∃ t rest ts', nextToken (c :: cs) = some (t, rest) ∧ tokens? rest = some ts' ∧
      ts = t :: ts' := by
  rw [tokens?, if_neg hnoSpace] at h
  split at h
  case h_1 => cases h
  case h_2 t rest hfirst =>
    obtain ⟨ts', hlater, rfl⟩ := Option.map_eq_some_iff.1 h
    exact ⟨t, rest, ts', hfirst, hlater, rfl⟩

/-- The tokens of a text are the first tokens of every longer text, but for a number at the end of
the text, in whose place there is another number. -/
theorem tokens?_append {cs more : List Char} {ts all : List Token} (h : tokens? cs = some ts)
    (hwhole : tokens? (cs ++ more) = some all) :
    (∃ after, tokens? more = some after ∧ all = ts ++ after) ∨
    (∃ before l l' after, ts = before ++ [.number l] ∧ all = before ++ .number l' :: after) := by
  induction cs using tokens?.induct generalizing ts all with
  | case1 =>
    rw [tokens?] at h
    cases h
    exact .inl ⟨all, hwhole, rfl⟩
  | case2 c rest hspace ih =>
    rw [tokens?, if_pos hspace] at h
    rw [List.cons_append, tokens?, if_pos hspace] at hwhole
    exact ih h hwhole
  | case3 c rest hnoSpace hnone =>
    obtain ⟨t, r, ts', hfirst, -⟩ := exists_nextToken hnoSpace h
    cases hnone.symm.trans hfirst
  | case4 c rest hnoSpace t rest' hfirst ih =>
    rw [tokens?_of_nextToken hfirst] at h
    obtain ⟨ts', hlater, rfl⟩ := Option.map_eq_some_iff.1 h
    obtain ⟨t', after, all', hfirst', hlater', rfl⟩ := exists_nextToken hnoSpace hwhole
    by_cases hleft : rest' ≠ [] ∨ ∀ l, t ≠ .number l
    · -- the first token is the same, and the others follow from the shorter text
      have hsame := (nextToken_append hfirst hleft more).symm.trans hfirst'
      obtain ⟨rfl, rfl⟩ := Prod.mk.inj (Option.some.inj hsame)
      rcases ih hlater hlater' with ⟨after, htail, rfl⟩ | ⟨before, l, l', after, rfl, rfl⟩
      · exact .inl ⟨after, htail, rfl⟩
      · exact .inr ⟨t :: before, l, l', after, rfl, rfl⟩
    · -- the text ends with this number
      obtain ⟨hatEnd, hnumber⟩ := not_or.1 hleft
      obtain rfl := Classical.not_not.1 hatEnd
      obtain ⟨l, hisNumber⟩ := Classical.not_forall.1 hnumber
      obtain rfl := Classical.not_not.1 hisNumber
      obtain ⟨l', rfl⟩ := number_of_nextToken hfirst hfirst'
      rw [tokens?] at hlater
      cases hlater
      exact .inr ⟨[], l, l', all', rfl, rfl⟩

theorem tokens?_ne_nil {c : Char} {cs : List Char} (hmem : c ∈ cs) (hnoSpace : ¬ isSpace c = true) :
    tokens? cs ≠ some [] := by
  intro h
  induction cs with
  | nil => cases hmem
  | cons d cs ih =>
    by_cases hspace : isSpace d = true
    · rw [tokens?, if_pos hspace] at h
      rcases List.mem_cons.1 hmem with rfl | hmem
      · exact hnoSpace hspace
      · exact ih hmem h
    · obtain ⟨t, rest, ts', -, -, hempty⟩ := exists_nextToken hspace h
      cases hempty

namespace ReadState

theorem run_ne_done {ts more : List Token} {s s' : ReadState} (h : s.run (ts ++ more) = some s')
    (hleft : more ≠ []) (d : Document) : s.run ts ≠ some (.done d) := by
  intro hcomplete
  obtain ⟨t, more, rfl⟩ := List.exists_cons_of_ne_nil hleft
  rw [run_append, hcomplete] at h
  cases h

/-- A document that ends with a number is that number. -/
theorem eq_beforeValue_of_next {s : ReadState} {l : Numeral} {d : Document}
    (h : s.next (.number l) = some (.done d)) : s = .beforeValue [] := by
  cases s with
  | beforeValue stack =>
    cases stack with
    | nil => rfl
    | cons frame stack => cases frame <;> cases h
  | _ => cases h

end ReadState

open ReadState

namespace Document

theorem run_of_ofTokens? {ts : List Token} {d : Document} (h : ofTokens? ts = some d) :
    (beforeValue []).run ts = some (.done d) := by
  unfold ofTokens? at h
  split at h
  case h_1 hcomplete =>
    obtain rfl := Option.some.inj h
    exact hcomplete
  case h_2 => cases h

/-- The text of an object that lacks its end is no document. -/
theorem parse?_eq_none_of_truncated {cs more : List Char} {c : Char}
    {fields : List (List Piece × Document)} (h : parse? (cs ++ more) = some (.object fields))
    (hmissing : c ∈ more) (hnoSpace : ¬ isSpace c = true) : parse? cs = none := by
  cases hread : parse? cs with
  | none => rfl
  | some d =>
    obtain ⟨ts, hcut, hread⟩ := Option.bind_eq_some_iff.1 hread
    obtain ⟨all, hwhole, h⟩ := Option.bind_eq_some_iff.1 h
    have hearly := run_of_ofTokens? hread
    have hcomplete := run_of_ofTokens? h
    rcases tokens?_append hcut hwhole with ⟨after, hlater, rfl⟩ | ⟨before, l, l', after, rfl, rfl⟩
    · have hleft : after ≠ [] := by
        rintro rfl
        exact tokens?_ne_nil hmissing hnoSpace hlater
      exact absurd hearly (run_ne_done hcomplete hleft d)
    · -- the document is read from the number alone, and then there is no object
      rw [run_append] at hearly hcomplete
      obtain ⟨s, hstart, hlast⟩ := Option.bind_eq_some_iff.1 hearly
      obtain ⟨s', hnext, hsame⟩ := Option.bind_eq_some_iff.1 hlast
      obtain rfl := Option.some.inj hsame
      obtain rfl := eq_beforeValue_of_next hnext
      rw [hstart] at hcomplete
      cases after <;> cases hcomplete

end Document

theorem exists_render_object (fields : List (String × Value)) :
    ∃ front, (Value.object fields).render = front ++ ['\x7d'] := by
  match fields with
  | [] => exact ⟨['\x7b'], rfl⟩
  | (k, v) :: rest =>
    refine ⟨'\x7b' :: (stringLiteral k ++ ':' ::
      (v.renderIn .tight 1 ++ Value.renderFields .tight 1 rest)), ?_⟩
    simp [Value.render, Value.renderIn, Layout.tight]

theorem Value.parse?_eq_none_of_truncated {fields : List (String × Value)}
    (hints : (object fields).isExact) {cs more : List Char}
    (hcut : cs ++ more = (object fields).render) (hmissing : more ≠ []) : parse? cs = none := by
  have hwhole : Document.parse? (cs ++ more) = some (object fields).document := by
    rw [hcut, render, Document.parse?_renderIn .tight hints]
  have hbracket : '\x7d' ∈ more := by
    obtain ⟨front, hending⟩ := exists_render_object fields
    rw [hending] at hcut
    have hlast := congrArg List.getLast? hcut
    rw [List.getLast?_append, List.getLast?_eq_some_getLast hmissing, Option.some_or,
      List.getLast?_concat] at hlast
    exact Option.some.inj hlast ▸ List.getLast_mem hmissing
  rw [parse?, Document.parse?_eq_none_of_truncated hwhole hbracket (by decide)]
  rfl

end PlotMiner.Json
