import PlotMiner.Proofs.Json.Literal
import PlotMiner.Proofs.Text.Strip
import PlotMiner.Timelord.Endpoint

/-!
# How endpoints are written

An endpoint is written as a host in any number of brackets with a port behind the last colon, or
without one, and with white space around all of it. Exactly these texts are read as endpoints
(`Spelling.parse_text`, `exists_spelling`), and what is read depends on the host and the number of
the port only.
-/

namespace PlotMiner.Timelord

open Text Json

section

variable {cs host port : List Char}

theorem splitAtLastColon_eq_none (hclean : ':' ∉ cs) : splitAtLastColon cs = none := by
  have hall : cs.reverse.takeWhile (· ≠ ':') = cs.reverse := by
    rw [List.takeWhile_eq_self_iff]
    intro c hmem
    have hother : c ≠ ':' := fun hsame => hclean (hsame ▸ List.mem_reverse.1 hmem)
    exact decide_eq_true hother
  rw [splitAtLastColon, hall, List.reverse_reverse]
  exact if_pos rfl

theorem splitAtLastColon_append (host : List Char) (hclean : ':' ∉ port) :
    splitAtLastColon (host ++ ':' :: port) = some (host, port) := by
  have hafter : ((host ++ ':' :: port).reverse.takeWhile (· ≠ ':')).reverse = port :=
    rtakeWhile_append_cons host hclean
  have hlength : (host ++ ':' :: port).length = host.length + 1 + port.length := by
    rw [List.length_append, List.length_cons]
    omega
  have hbefore : host.length + 1 + port.length - port.length - 1 = host.length := by omega
  unfold splitAtLastColon
  simp only [hafter, hlength, hbefore, List.take_left']
  rw [if_neg (by omega)]

theorem splitAtLastColon_cases (cs : List Char) :
    (':' ∉ cs ∧ splitAtLastColon cs = none) ∨
      ∃ host port, cs = host ++ ':' :: port ∧ ':' ∉ port ∧
        splitAtLastColon cs = some (host, port) := by
  by_cases hcolon : ':' ∈ cs
  · obtain ⟨port, host, hsplit, hclean⟩ := List.eq_append_cons_of_mem (List.mem_reverse.2 hcolon)
    have hwhole : cs = host.reverse ++ ':' :: port.reverse := by
      rw [← List.reverse_reverse cs, hsplit]
      simp
    have hclean' : ':' ∉ port.reverse := fun hmem => hclean (List.mem_reverse.1 hmem)
    exact .inr ⟨_, _, hwhole, hclean', hwhole ▸ splitAtLastColon_append _ hclean'⟩
  · exact .inl ⟨hcolon, splitAtLastColon_eq_none hcolon⟩

end

/-- The number that decimal digits stand for, after a number that stands before them. -/
def decimalFrom (value : Nat) (cs : List Char) : Nat :=
  cs.foldl (fun value c => value * 10 + digitOf c) value

theorem le_decimalFrom (value : Nat) (cs : List Char) : value ≤ decimalFrom value cs := by
  induction cs generalizing value with
  | nil => exact Nat.le_refl value
  | cons c rest ih =>
    have hgrown : value ≤ value * 10 + digitOf c := by omega
    exact Nat.le_trans hgrown (ih _)

theorem decimalFrom_natDigits (n : Nat) : decimalFrom 0 (natDigits n) = n := by
  have hvalue := natOfDigits_digitsOf n
  rw [natOfDigits, digitsOf, List.foldl_map] at hvalue
  exact hvalue

theorem readPort_eq_ok_iff {value : Nat} (hsmall : value < UInt16.size) {cs : List Char}
    {p : UInt16} :
    readPort value cs = .ok p ↔
      (∀ c ∈ cs, c.isDigit = true) ∧ decimalFrom value cs < UInt16.size ∧
        UInt16.ofNat (decimalFrom value cs) = p := by
  induction cs generalizing value with
  | nil => simp [readPort, decimalFrom, hsmall]
  | cons c rest ih =>
    have hnext : decimalFrom value (c :: rest) = decimalFrom (value * 10 + digitOf c) rest := rfl
    rw [readPort, hnext, List.forall_mem_cons]
    split
    case isTrue hdigit =>
      rw [isDigit_iff] at hdigit
      simp only [hdigit, true_and]
      split
      case isTrue hfits => exact ih hfits
      case isFalse hlarge =>
        have hlarger := le_decimalFrom (value * 10 + digitOf c) rest
        simp only [reduceCtorEq, false_iff]
        rintro ⟨-, hfits, -⟩
        exact hlarge (Nat.lt_of_le_of_lt hlarger hfits)
    case isFalse hother =>
      rw [isDigit_iff] at hother
      simp [hother]

/-- A port as it is written: with a plus sign or without, and with any leading zeros. -/
structure PortText where
  plus : Bool
  digits : List Char
  digits_ne_nil : digits ≠ []
  isDigit : ∀ c ∈ digits, c.isDigit = true
  fits : decimalFrom 0 digits < UInt16.size

namespace PortText

variable (t : PortText) (p : UInt16)

def text : List Char := if t.plus then '+' :: t.digits else t.digits

def number : UInt16 := UInt16.ofNat (decimalFrom 0 t.digits)

def ofNumber : PortText where
  plus := false
  digits := natDigits p.toNat
  digits_ne_nil := Nat.toDigits_ne_nil
  isDigit _ := isDigit_of_mem_natDigits
  fits := by rw [decimalFrom_natDigits]; exact p.toNat_lt

@[simp]
theorem number_ofNumber : (ofNumber p).number = p := by
  rw [number, ofNumber, decimalFrom_natDigits, UInt16.ofNat_toNat]

theorem text_ofNumber : (ofNumber p).text = natDigits p.toNat := rfl

theorem parsePort_plus {ds : List Char} (hsome : ds ≠ []) :
    parsePort ('+' :: ds) = readPort 0 ds := by
  obtain ⟨d, rest, rfl⟩ := List.exists_cons_of_ne_nil hsome
  rfl

theorem parsePort_of_ne_plus {d : Char} (hnoSign : d ≠ '+') (ds : List Char) :
    parsePort (d :: ds) = readPort 0 (d :: ds) := by
  unfold parsePort
  split
  case h_1 hsame => cases hsame
  case h_2 hsame => exact absurd (List.cons.inj hsame).1 hnoSign
  case h_3 hsame => exact absurd (List.cons.inj hsame).1 hnoSign
  case h_4 => rfl

theorem parsePort_text : parsePort t.text = .ok t.number := by
  have hread : readPort 0 t.digits = .ok t.number :=
    (readPort_eq_ok_iff (by decide)).2 ⟨t.isDigit, t.fits, rfl⟩
  unfold text
  split
  case isTrue => rw [parsePort_plus t.digits_ne_nil, hread]
  case isFalse =>
    obtain ⟨d, ds, hsplit⟩ := List.exists_cons_of_ne_nil t.digits_ne_nil
    have hnoSign : d ≠ '+' := by
      rintro rfl
      exact absurd (t.isDigit '+' (hsplit ▸ List.mem_cons_self)) (by decide)
    rw [hsplit, parsePort_of_ne_plus hnoSign, ← hsplit, hread]

theorem isDigit_or_plus {c : Char} (hmem : c ∈ t.text) : c.isDigit = true ∨ c = '+' := by
  unfold text at hmem
  split at hmem
  case isTrue => exact (List.mem_cons.1 hmem).symm.imp_left (t.isDigit c)
  case isFalse => exact .inl (t.isDigit c hmem)

theorem exists_of_readPort {ds : List Char} {p : UInt16} (plus : Bool) (hsome : ds ≠ [])
    (h : readPort 0 ds = .ok p) :
    ∃ t : PortText, t.text = (if plus then '+' :: ds else ds) ∧ t.number = p := by
  obtain ⟨hisDigit, hfits, hvalue⟩ := (readPort_eq_ok_iff (by decide)).1 h
  exact ⟨⟨plus, ds, hsome, hisDigit, hfits⟩, rfl, hvalue⟩

theorem exists_of_parsePort {cs : List Char} {p : UInt16} (h : parsePort cs = .ok p) :
    ∃ t : PortText, t.text = cs ∧ t.number = p := by
  unfold parsePort at h
  split at h
  case h_1 => cases h
  case h_2 => cases h
  case h_3 ds hnotSign => exact exists_of_readPort true hnotSign h
  case h_4 cs hsome _ _ => exact exists_of_readPort false hsome h

theorem text_ne_nil : t.text ≠ [] := by
  unfold text
  split
  case isTrue => exact List.cons_ne_nil _ _
  case isFalse => exact t.digits_ne_nil

/-- A port begins and ends with a character that is no white space, and has no colon in it. -/
theorem solid {c : Char} (hmem : c ∈ t.text) : isBlank c = false ∧ c ≠ ':' := by
  obtain hdigit | rfl := t.isDigit_or_plus hmem
  · exact ⟨isBlank_of_isDigit hdigit, fun hsame => absurd (hsame ▸ hdigit) (by decide)⟩
  · decide

end PortText

/-- The characters of a host. Brackets at its ends are never part of it. -/
structure Host where
  chars : List Char
  ne_nil : chars ≠ []
  bare : Stripped (· = '[') (· = ']') chars

theorem dropBrackets_eq_strip (cs : List Char) :
    dropBrackets cs = strip (· = '[') (· = ']') cs := rfl

namespace Host

def bracketed (h : Host) (opening closing : Nat) : List Char :=
  List.replicate opening '[' ++ (h.chars ++ List.replicate closing ']')

theorem dropBrackets_bracketed (h : Host) (opening closing : Nat) :
    dropBrackets (h.bracketed opening closing) = h.chars := by
  rw [dropBrackets_eq_strip, bracketed, strip_append, h.bare.strip_eq]
  · exact fun c hmem => decide_eq_true (List.eq_of_mem_replicate hmem)
  · exact fun c hmem => decide_eq_true (List.eq_of_mem_replicate hmem)

theorem exists_bracketed {cs : List Char} (hsome : dropBrackets cs ≠ []) :
    ∃ (h : Host) (opening closing : Nat), cs = h.bracketed opening closing ∧
      h.chars = dropBrackets cs := by
  obtain ⟨l, r, hwhole, hleft, hright⟩ := exists_strip (· = '[') (· = ']') cs
  refine ⟨⟨dropBrackets cs, hsome, stripped_strip ..⟩, l.length, r.length, ?_, rfl⟩
  rw [bracketed, ← List.eq_replicate_of_mem fun c hmem => of_decide_eq_true (hleft c hmem),
    ← List.eq_replicate_of_mem fun c hmem => of_decide_eq_true (hright c hmem)]
  exact hwhole

theorem head?_bracketed (h : Host) (opening closing : Nat) :
    (h.bracketed opening closing).head? = if opening = 0 then h.chars.head? else some '[' := by
  unfold bracketed
  split
  case isTrue hnone =>
    rw [hnone, List.replicate_zero, List.nil_append, List.head?_append_of_ne_nil _ h.ne_nil]
  case isFalse hsome =>
    obtain ⟨n, hmore⟩ := Nat.exists_eq_succ_of_ne_zero hsome
    rw [hmore, List.replicate_succ]
    rfl

theorem getLast?_bracketed (h : Host) (opening closing : Nat) :
    (h.bracketed opening closing).getLast? =
      if closing = 0 then h.chars.getLast? else some ']' := by
  unfold bracketed
  split
  case isTrue hnone =>
    rw [hnone, List.replicate_zero, List.append_nil, List.getLast?_append_of_ne_nil _ h.ne_nil]
  case isFalse hsome =>
    obtain ⟨n, hmore⟩ := Nat.exists_eq_succ_of_ne_zero hsome
    rw [hmore, List.replicate_succ', ← List.append_assoc, ← List.append_assoc, List.getLast?_concat]

theorem bracketed_ne_nil (h : Host) (opening closing : Nat) : h.bracketed opening closing ≠ [] := by
  simp [bracketed, h.ne_nil]

theorem mem_bracketed {h : Host} {opening closing : Nat} {c : Char} :
    c ∈ h.bracketed opening closing ↔
      (opening ≠ 0 ∧ c = '[') ∨ c ∈ h.chars ∨ (closing ≠ 0 ∧ c = ']') := by
  simp [bracketed, List.mem_replicate]

theorem ofHost_bracketed (h : Host) (opening closing : Nat) (text : List Char) (p : UInt16) :
    Endpoint.ofHost text (h.bracketed opening closing) p = .ok ⟨String.ofList h.chars, p⟩ := by
  unfold Endpoint.ofHost
  rw [h.dropBrackets_bracketed]
  exact if_neg (by simp [h.ne_nil])

theorem exists_of_ofHost {text cs : List Char} {p : UInt16} {e : Endpoint}
    (h : Endpoint.ofHost text cs p = .ok e) :
    ∃ (host : Host) (opening closing : Nat), cs = host.bracketed opening closing ∧
      e = ⟨String.ofList host.chars, p⟩ := by
  unfold Endpoint.ofHost at h
  dsimp only at h
  split at h
  case isTrue => cases h
  case isFalse hsome =>
    obtain ⟨host, opening, closing, hwhole, hchars⟩ := exists_bracketed (by simpa using hsome)
    refine ⟨host, opening, closing, hwhole, ?_⟩
    rw [hchars]
    exact (Except.ok.inj h).symm

end Host

structure Spelling where
  left : List Char
  opening : Nat
  host : Host
  closing : Nat
  port : Option PortText
  right : List Char
  left_blank : ∀ c ∈ left, isBlank c = true
  right_blank : ∀ c ∈ right, isBlank c = true
  /-- White space in front of a host is part of it only inside brackets. -/
  front : opening = 0 → ∀ c ∈ host.chars.head?, isBlank c = false
  /-- White space behind a host is part of it only inside brackets, or in front of a port. -/
  back : port = none → closing = 0 → ∀ c ∈ host.chars.getLast?, isBlank c = false
  /-- A host with colons of its own needs a port. -/
  colon : port = none → ':' ∉ host.chars

namespace Spelling

variable (s : Spelling)

def bracketed : List Char := s.host.bracketed s.opening s.closing

def core : List Char :=
  match s.port with
  | none => s.bracketed
  | some t => s.bracketed ++ ':' :: t.text

def text : String := String.ofList (s.left ++ (s.core ++ s.right))

/-- The endpoint that is meant, for the port of those that are written without one. -/
def endpoint (defaultPort : UInt16) : Endpoint :=
  ⟨String.ofList s.host.chars, (s.port.map (·.number)).getD defaultPort⟩

theorem stripped_core : Stripped isBlank isBlank s.core := by
  have hfront : ∀ c ∈ s.bracketed.head?, isBlank c = false := by
    rw [bracketed, Host.head?_bracketed]
    split
    case isTrue hnone => exact s.front hnone
    case isFalse => simp [isBlank]
  unfold core
  split
  case h_1 hnoPort =>
    refine ⟨hfront, ?_⟩
    rw [bracketed, Host.getLast?_bracketed]
    split
    case isTrue hnone => exact s.back hnoPort hnone
    case isFalse => simp [isBlank]
  case h_2 t _ =>
    refine ⟨?_, ?_⟩
    · have hsome : s.bracketed ≠ [] := s.host.bracketed_ne_nil _ _
      rwa [List.head?_append_of_ne_nil _ hsome]
    · intro c hlast
      rw [List.append_cons, List.getLast?_append_of_ne_nil _ t.text_ne_nil] at hlast
      exact (t.solid (List.mem_of_getLast? hlast)).1

theorem trimChars_text : trimChars s.text.toList = s.core := by
  rw [text, String.toList_ofList, trimChars_eq_strip, strip_append s.left_blank s.right_blank,
    s.stripped_core.strip_eq]

theorem colon_not_mem_bracketed (hnoPort : s.port = none) : ':' ∉ s.bracketed := by
  simp [bracketed, Host.mem_bracketed, s.colon hnoPort]

theorem mem_text_of_mem_host {c : Char} (hmem : c ∈ s.host.chars) : c ∈ s.text.toList := by
  have hinside : c ∈ s.core := by
    have hbracketed : c ∈ s.bracketed := Host.mem_bracketed.2 (.inr (.inl hmem))
    unfold core
    split
    case h_1 => exact hbracketed
    case h_2 => exact List.mem_append_left _ hbracketed
  simp [text, hinside]

theorem parse_text (defaultPort : UInt16) :
    Endpoint.parse s.text defaultPort = .ok (s.endpoint defaultPort) := by
  unfold Endpoint.parse endpoint
  simp only [trimChars_text]
  unfold core
  cases hport : s.port with
  | none =>
    simp only [splitAtLastColon_eq_none (s.colon_not_mem_bracketed hport)]
    exact s.host.ofHost_bracketed ..
  | some t =>
    have hclean : ':' ∉ t.text := fun hmem => (t.solid hmem).2 rfl
    simp only [splitAtLastColon_append _ hclean, t.parsePort_text]
    exact s.host.ofHost_bracketed ..

section

variable {left right : List Char} {opening closing : Nat} (host : Host)
  (hleft_blank : ∀ c ∈ left, isBlank c = true) (hright_blank : ∀ c ∈ right, isBlank c = true)

include hleft_blank hright_blank

theorem exists_without_port
    (hsolid : Stripped isBlank isBlank (host.bracketed opening closing))
    (hclean : ':' ∉ host.bracketed opening closing) :
    ∃ s : Spelling,
      s.text = String.ofList (left ++ (host.bracketed opening closing ++ right)) ∧
        ∀ defaultPort, s.endpoint defaultPort = ⟨String.ofList host.chars, defaultPort⟩ := by
  have hfront := hsolid.front
  have hback := hsolid.back
  rw [Host.head?_bracketed] at hfront
  rw [Host.getLast?_bracketed] at hback
  refine ⟨⟨left, opening, host, closing, none, right, hleft_blank, hright_blank,
    fun hnone => ?_, fun _ hnone => ?_, fun _ hmem => ?_⟩, rfl, fun _ => rfl⟩
  · rwa [if_pos hnone] at hfront
  · rwa [if_pos hnone] at hback
  · exact hclean (Host.mem_bracketed.2 (.inr (.inl hmem)))

theorem exists_with_port (t : PortText)
    (hsolid : Stripped isBlank isBlank (host.bracketed opening closing ++ ':' :: t.text)) :
    ∃ s : Spelling,
      s.text =
          String.ofList (left ++ ((host.bracketed opening closing ++ ':' :: t.text) ++ right)) ∧
        ∀ defaultPort, s.endpoint defaultPort = ⟨String.ofList host.chars, t.number⟩ := by
  have hfront := hsolid.front
  rw [List.head?_append_of_ne_nil _ (host.bracketed_ne_nil _ _), Host.head?_bracketed] at hfront
  refine ⟨⟨left, opening, host, closing, some t, right, hleft_blank, hright_blank,
    fun hnone => ?_, by simp, by simp⟩, rfl, fun _ => rfl⟩
  rwa [if_pos hnone] at hfront

end

end Spelling

/-- Every text that is read as an endpoint is one of its spellings. -/
theorem exists_spelling {text : String} {defaultPort : UInt16} {e : Endpoint}
    (h : Endpoint.parse text defaultPort = .ok e) :
    ∃ s : Spelling, s.text = text ∧ s.endpoint defaultPort = e := by
  obtain ⟨left, right, hwhole, hleft_blank, hright_blank⟩ :=
    exists_strip isBlank isBlank text.toList
  have hsolid := stripped_strip isBlank isBlank text.toList
  unfold Endpoint.parse at h
  rw [← trimChars_eq_strip] at hwhole hsolid
  dsimp only at h
  generalize trimChars text.toList = core at h hwhole hsolid
  rw [← String.ofList_toList (s := text), hwhole]
  obtain ⟨hclean, hsplit⟩ | ⟨before, port, rfl, -, hsplit⟩ := splitAtLastColon_cases core
  · simp only [hsplit] at h
    obtain ⟨host, opening, closing, rfl, rfl⟩ := Host.exists_of_ofHost h
    obtain ⟨s, hwritten, hmeant⟩ :=
      Spelling.exists_without_port host hleft_blank hright_blank hsolid hclean
    exact ⟨s, hwritten, hmeant defaultPort⟩
  · simp only [hsplit] at h
    cases hparsed : parsePort port with
    | error reason => simp [hparsed] at h
    | ok p =>
      simp only [hparsed] at h
      obtain ⟨host, opening, closing, rfl, rfl⟩ := Host.exists_of_ofHost h
      obtain ⟨t, rfl, rfl⟩ := PortText.exists_of_parsePort hparsed
      obtain ⟨s, hwritten, hmeant⟩ :=
        Spelling.exists_with_port host hleft_blank hright_blank t hsolid
      exact ⟨s, hwritten, hmeant defaultPort⟩

end PlotMiner.Timelord
