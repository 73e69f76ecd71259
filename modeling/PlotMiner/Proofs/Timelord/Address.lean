import PlotMiner.Proofs.Timelord.Spelling

/-!
# Endpoints as they are shown

An endpoint is shown as its host and its port with a colon between them. However an endpoint was
written, what is shown of it is read as the same endpoint again (`parse_render`).

The last colon of a text is taken for the one before a port. So an address that has colons of its
own is read from brackets only with a port behind them (`bracketed_address_needs_port`).
-/

namespace PlotMiner.Timelord

open Text Json

/-- The host of an endpoint can be written without brackets in front of a port. -/
structure Endpoint.Plain (e : Endpoint) : Prop where
  ne_nil : e.host.toList ≠ []
  bare : Stripped (· = '[') (· = ']') e.host.toList
  front : ∀ c ∈ e.host.toList.head?, isBlank c = false

namespace Endpoint.Plain

variable {e : Endpoint}

/-- What is shown of an endpoint, as one of its spellings. -/
def shown (h : e.Plain) : Spelling where
  left := []
  opening := 0
  host := ⟨e.host.toList, h.ne_nil, h.bare⟩
  closing := 0
  port := some (.ofNumber e.port)
  right := []
  left_blank := by simp
  right_blank := by simp
  front _ := h.front
  back := by simp
  colon := by simp

theorem text_shown (h : e.Plain) : h.shown.text = e.render := by
  rw [← String.toList_inj]
  simp [Spelling.text, Spelling.core, Spelling.bracketed, Host.bracketed, shown,
    PortText.text_ofNumber, Endpoint.render]

theorem endpoint_shown (h : e.Plain) (defaultPort : UInt16) : h.shown.endpoint defaultPort = e := by
  simp [shown, Spelling.endpoint]

theorem parse_render (h : e.Plain) (defaultPort : UInt16) :
    Endpoint.parse e.render defaultPort = .ok e := by
  rw [← h.text_shown, Spelling.parse_text, h.endpoint_shown]

end Endpoint.Plain

theorem plain_of_parse {text : String} {defaultPort : UInt16} {e : Endpoint}
    (hsolid : ∀ c ∈ text.toList, isBlank c = false)
    (hwritten : Endpoint.parse text defaultPort = .ok e) : e.Plain := by
  obtain ⟨s, rfl, rfl⟩ := exists_spelling hwritten
  have hhost : (s.endpoint defaultPort).host.toList = s.host.chars := by simp [Spelling.endpoint]
  refine ⟨?_, ?_, ?_⟩
  · rw [hhost]
    exact s.host.ne_nil
  · rw [hhost]
    exact s.host.bare
  · rw [hhost]
    intro c hfirst
    exact hsolid c (s.mem_text_of_mem_host (List.mem_of_head? hfirst))

/-- What is shown of an endpoint that was written without white space is read as the same endpoint,
whatever the port of those that are written without one. -/
theorem parse_render_of_solid {text : String} {defaultPort : UInt16} {e : Endpoint}
    (hsolid : ∀ c ∈ text.toList, isBlank c = false)
    (hwritten : Endpoint.parse text defaultPort = .ok e) (defaultPort' : UInt16) :
    Endpoint.parse e.render defaultPort' = .ok e :=
  (plain_of_parse hsolid hwritten).parse_render defaultPort'

/-- Inner and outer brackets, colons, a sign and leading zeros. -/
theorem parse_render_of_solid_ornate :
    Endpoint.parse "[[fe80::[1]]:+0080" 19191 = .ok ⟨"fe80::[1", 80⟩ ∧
      Endpoint.parse (Endpoint.render ⟨"fe80::[1", 80⟩) 7 = .ok ⟨"fe80::[1", 80⟩ := by
  have hwritten : Endpoint.parse "[[fe80::[1]]:+0080" 19191 = .ok ⟨"fe80::[1", 80⟩ := by rfl
  exact ⟨hwritten, parse_render_of_solid (by simp [isBlank]) hwritten 7⟩

/-- An address in colon notation: hexadecimal digits, dots and at least one colon. -/
structure IsAddress (cs : List Char) : Prop where
  chars : ∀ c ∈ cs, (hexDigit? c).isSome ∨ c = '.' ∨ c = ':'
  colon : ':' ∈ cs

theorem IsAddress.not_bracket {cs : List Char} (h : IsAddress cs) {c : Char} (hmem : c ∈ cs) :
    c ≠ '[' ∧ c ≠ ']' := by
  obtain hdigit | rfl | rfl := h.chars c hmem
  · refine ⟨?_, ?_⟩
    · rintro rfl
      exact absurd hdigit (by decide)
    · rintro rfl
      exact absurd hdigit (by decide)
  · decide
  · decide

theorem IsAddress.bare {cs : List Char} (h : IsAddress cs) : Stripped (· = '[') (· = ']') cs :=
  ⟨fun _ hfirst => decide_eq_false (h.not_bracket (List.mem_of_head? hfirst)).1,
    fun _ hlast => decide_eq_false (h.not_bracket (List.mem_of_getLast? hlast)).2⟩

/-- An address in brackets with a port behind them. -/
def IsAddress.bracketed {cs : List Char} (h : IsAddress cs) (port : UInt16) : Spelling where
  left := []
  opening := 1
  host := ⟨cs, List.ne_nil_of_mem h.colon, h.bare⟩
  closing := 1
  port := some (.ofNumber port)
  right := []
  left_blank := by simp
  right_blank := by simp
  front := by simp
  back := by simp
  colon := by simp

/-- What stands in brackets and has a colon in it is no endpoint as long as no port follows: what
stands behind its last colon is taken for the port. -/
theorem parse_bracketed_of_colon {cs : List Char} (hcolon : ':' ∈ cs) (defaultPort : UInt16) :
    ∃ reason, Endpoint.parse (String.ofList ('[' :: (cs ++ [']']))) defaultPort =
      .error (.badPort (String.ofList ('[' :: (cs ++ [']']))) reason) := by
  have hlast : ('[' :: (cs ++ [']'])).getLast? = some ']' := by
    rw [← List.cons_append, List.getLast?_concat]
  have hsolid : trimChars ('[' :: (cs ++ [']'])) = '[' :: (cs ++ [']']) := by
    refine Stripped.strip_eq ⟨?_, ?_⟩
    · simp [isBlank]
    · rw [hlast]
      simp [isBlank]
  unfold Endpoint.parse
  simp only [String.toList_ofList, hsolid]
  obtain ⟨hclean, -⟩ | ⟨before, port, hwhole, -, hsplit⟩ :=
    splitAtLastColon_cases ('[' :: (cs ++ [']']))
  · simp [hcolon] at hclean
  · have hclosing : ']' ∈ port := by
      rw [hwhole, List.getLast?_append_of_ne_nil _ (List.cons_ne_nil _ _)] at hlast
      simpa using List.mem_of_getLast? hlast
    simp only [hsplit]
    cases hread : parsePort port with
    | error reason => exact ⟨reason, rfl⟩
    | ok p =>
      obtain ⟨t, rfl, -⟩ := PortText.exists_of_parsePort hread
      exact absurd (t.isDigit_or_plus hclosing) (by decide)

/-- An address with colons is read from brackets if a port follows them, and refused if none does:
its own last colon is taken for the one before a port. -/
theorem bracketed_address_needs_port {host : String} (haddress : IsAddress host.toList)
    (port defaultPort : UInt16) :
    Endpoint.parse ("[" ++ host ++ "]:" ++ String.ofList (natDigits port.toNat)) defaultPort =
        .ok ⟨host, port⟩ ∧
      ∃ reason, Endpoint.parse ("[" ++ host ++ "]") defaultPort =
        .error (.badPort ("[" ++ host ++ "]") reason) := by
  have hwritten : (haddress.bracketed port).text =
      "[" ++ host ++ "]:" ++ String.ofList (natDigits port.toNat) := by
    rw [← String.toList_inj]
    simp [Spelling.text, Spelling.core, Spelling.bracketed, Host.bracketed, IsAddress.bracketed,
      PortText.text_ofNumber]
  have hmeant : (haddress.bracketed port).endpoint defaultPort = ⟨host, port⟩ := by
    simp [Spelling.endpoint, IsAddress.bracketed]
  have hportless : String.ofList ('[' :: (host.toList ++ [']'])) = "[" ++ host ++ "]" := by
    rw [← String.toList_inj]
    simp
  refine ⟨?_, ?_⟩
  · rw [← hwritten, Spelling.parse_text, hmeant]
  · rw [← hportless]
    exact parse_bracketed_of_colon haddress.colon defaultPort

/-- A link-local address. -/
theorem bracketed_address_needs_port_local :
    IsAddress "fe80::1.2.3.4".toList ∧
      Endpoint.parse "[fe80::1.2.3.4]:2000" 19191 = .ok ⟨"fe80::1.2.3.4", 2000⟩ ∧
      ∃ reason, Endpoint.parse "[fe80::1.2.3.4]" 19191 =
        .error (.badPort "[fe80::1.2.3.4]" reason) := by
  have haddress : IsAddress "fe80::1.2.3.4".toList := ⟨by simp [hexDigit?], by simp⟩
  exact ⟨haddress, bracketed_address_needs_port haddress 2000 19191⟩

/-- The loopback address in brackets is no endpoint, although an endpoint may be written without
its port. -/
theorem bracketed_loopback_refused :
    IsAddress "::1".toList ∧ Endpoint.parse "[::1]" 19191 ≠ .ok ⟨"::1", 19191⟩ ∧
      Endpoint.parse "[::1]" 19191 = .error (.badPort "[::1]" .invalidDigit) := by
  have haddress : IsAddress "::1".toList := ⟨by simp [hexDigit?], by simp⟩
  have hrefused : Endpoint.parse "[::1]" 19191 = .error (.badPort "[::1]" .invalidDigit) := by rfl
  exact ⟨haddress, by simp [hrefused], hrefused⟩

end PlotMiner.Timelord
