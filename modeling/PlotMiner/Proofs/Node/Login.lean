import PlotMiner.Node.Client
import PlotMiner.Proofs.Text.Strip
import PlotMiner.Proofs.Text.Utf8

/-!
# How a client stays logged in

A cookie file gives credentials if its first line, without the white space around it, has a colon
(`Credentials.GivenBy`). Reading the file again goes one of three ways (`NodeClient.Reload`): there
is no file, the file gives credentials, or it gives none, and only in the second of them does the
client change. So a client that reads the file again and again has the credentials that the file
gave last (`NodeClient.credentials_latest`), however often it was gone, empty or half-written since;
and a client with configured credentials keeps them.
-/

namespace PlotMiner

open Text

theorem readText_eq_ok_iff {bytes : List UInt8} {cs : List Char} :
    readText (some bytes) = .ok cs ↔ bytes = utf8 cs := by
  unfold readText
  constructor
  · intro h
    simp only at h
    split at h
    case h_1 hdecoded =>
      cases h
      exact eq_utf8_of_decodeUtf8? hdecoded
    case h_2 => cases h
  · rintro rfl
    simp only [decodeUtf8?_utf8]

theorem splitAtColon_eq_some_iff {cs before after : List Char} :
    splitAtColon cs = some (before, after) ↔ cs = before ++ ':' :: after ∧ ':' ∉ before := by
  induction cs generalizing before with
  | nil =>
    apply iff_of_false
    · exact nofun
    · rintro ⟨hwhole, -⟩
      simp at hwhole
  | cons c cs ih =>
    by_cases hcolon : c = ':'
    · subst hcolon
      rw [splitAtColon, if_pos rfl]
      cases before with
      | nil => simp [eq_comm]
      | cons d before =>
        apply iff_of_false nofun
        rintro ⟨hwhole, hfresh⟩
        obtain ⟨rfl, -⟩ := List.cons.inj hwhole
        exact hfresh List.mem_cons_self
    · rw [splitAtColon, if_neg hcolon]
      cases before with
      | nil => simp [hcolon]
      | cons d before =>
        constructor
        · intro h
          obtain ⟨⟨before', after'⟩, hfound, hsame⟩ := Option.map_eq_some_iff.1 h
          cases hsame
          obtain ⟨rfl, hfresh⟩ := ih.1 hfound
          exact ⟨rfl, by simpa [Ne.symm hcolon] using hfresh⟩
        · rintro ⟨hwhole, hfresh⟩
          obtain ⟨rfl, hrest⟩ := List.cons.inj hwhole
          have hfresh : ':' ∉ before := fun hmem => hfresh (List.mem_cons_of_mem _ hmem)
          exact Option.map_eq_some_iff.2 ⟨(before, after), ih.2 ⟨hrest, hfresh⟩, rfl⟩

namespace Credentials

def written (c : Credentials) : List Char := c.user.toList ++ ':' :: c.password.toList

/-- The contents of a cookie file give the credentials: white space around them aside, they are the
first line, and the first colon of the line ends the user. -/
inductive GivenBy (contents : Option (List UInt8)) (c : Credentials) : Prop
  | intro (left right rest : List Char)
      (hbytes : contents = some (utf8 ((left ++ (c.written ++ right)) ++ rest)))
      (hline : '\n' ∉ left ++ (c.written ++ right)) (hends : ∀ d ∈ rest.head?, d = '\n')
      (hleft_blank : ∀ d ∈ left, isBlank d = true) (hright_blank : ∀ d ∈ right, isBlank d = true)
      (htrimmed : Stripped isBlank isBlank c.written) (huser : ':' ∉ c.user.toList)

theorem not_givenBy_none (c : Credentials) : ¬ GivenBy none c := by
  rintro ⟨_, _, _, hbytes, -⟩
  cases hbytes

theorem ofLine_eq_ok_iff {path : Path} {line : List Char} {c : Credentials} :
    ofLine path line = .ok c ↔ line = c.written ∧ ':' ∉ c.user.toList := by
  unfold ofLine written
  constructor
  · intro h
    split at h
    case isTrue => cases h
    case isFalse =>
      split at h
      case h_1 user password hcolon =>
        cases h
        simpa only [String.toList_ofList] using splitAtColon_eq_some_iff.1 hcolon
      case h_2 => cases h
  · rintro ⟨rfl, huser⟩
    have hcolon :=
      splitAtColon_eq_some_iff.2 ⟨Eq.refl (c.user.toList ++ ':' :: c.password.toList), huser⟩
    simp [hcolon]

theorem exists_firstLine (cs : List Char) :
    ∃ left right rest, cs = (left ++ (firstLine cs ++ right)) ++ rest ∧
      '\n' ∉ left ++ (firstLine cs ++ right) ∧ (∀ d ∈ rest.head?, d = '\n') ∧
      (∀ d ∈ left, isBlank d = true) ∧ (∀ d ∈ right, isBlank d = true) := by
  obtain ⟨left, right, hwhole, hleft_blank, hright_blank⟩ :=
    exists_strip isBlank isBlank (cs.takeWhile (· ≠ '\n'))
  rw [← trimChars_eq_strip] at hwhole
  refine ⟨left, right, cs.dropWhile (· ≠ '\n'), ?_, ?_, ?_, hleft_blank, hright_blank⟩
  · rw [firstLine, ← hwhole, List.takeWhile_append_dropWhile]
  · rw [firstLine, ← hwhole]
    intro hmem
    simpa using List.mem_takeWhile_imp hmem
  · intro d hfirst
    have hstopped := List.head?_dropWhile_not (· ≠ '\n') cs
    rw [hfirst] at hstopped
    simpa using hstopped

theorem firstLine_eq {left core right rest : List Char} (hline : '\n' ∉ left ++ (core ++ right))
    (hends : ∀ d ∈ rest.head?, d = '\n') (hleft_blank : ∀ d ∈ left, isBlank d = true)
    (hright_blank : ∀ d ∈ right, isBlank d = true) (htrimmed : Stripped isBlank isBlank core) :
    firstLine ((left ++ (core ++ right)) ++ rest) = core := by
  have hinside : ∀ d ∈ left ++ (core ++ right), decide (d ≠ '\n') = true := by
    intro d hmem
    exact decide_eq_true fun hsame => hline (hsame ▸ hmem)
  have houtside : rest.takeWhile (· ≠ '\n') = [] := by
    cases rest with
    | nil => rfl
    | cons d rest => exact List.takeWhile_cons_of_neg (by simp [hends d rfl])
  rw [firstLine, List.takeWhile_append_of_pos hinside, houtside, List.append_nil,
    trimChars_eq_strip, strip_append hleft_blank hright_blank, htrimmed.strip_eq]

theorem ofCookie_some_eq_ok_iff (path : Path) {bytes : List UInt8} {c : Credentials} :
    ofCookie path (some bytes) = .ok c ↔ GivenBy (some bytes) c := by
  constructor
  · intro h
    cases hread : readText (some bytes) with
    | error e =>
      rw [ofCookie, hread] at h
      cases h
    | ok cs =>
      rw [ofCookie, hread] at h
      obtain ⟨hwritten, huser⟩ := ofLine_eq_ok_iff.1 h
      obtain ⟨left, right, rest, hwhole, hline, hends, hleft_blank, hright_blank⟩ :=
        exists_firstLine cs
      have htrimmed : Stripped isBlank isBlank (firstLine cs) := stripped_strip _ _ _
      rw [hwritten] at hwhole hline htrimmed
      refine .intro left right rest ?_ hline hends hleft_blank hright_blank htrimmed huser
      rw [readText_eq_ok_iff.1 hread, ← hwhole]
  · rintro ⟨left, right, rest, hwhole, hline, hends, hleft_blank, hright_blank, htrimmed, huser⟩
    have hread := readText_eq_ok_iff.2 (Option.some.inj hwhole)
    rw [ofCookie, hread]
    apply ofLine_eq_ok_iff.2
    exact ⟨firstLine_eq hline hends hleft_blank hright_blank htrimmed, huser⟩

end Credentials

namespace NodeClient

open Credentials

variable {c : NodeClient} {path : Path} {files : CookieFiles}

/-- How reading the cookie file at `path` again goes: what the client is then, and what is said. -/
inductive Reload (path : Path) (c : NodeClient) (files : CookieFiles) :
    NodeClient × Except Failure Bool → Prop
  | missing (hgone : files path = none) : Reload path c files (c, .ok false)
  | renewed {credentials} (hgiven : GivenBy (files path) credentials) :
      Reload path c files ({ c with credentials := credentials }, .ok true)
  | refused {e} (hthere : files path ≠ none) (hnone : ∀ other, ¬ GivenBy (files path) other) :
      Reload path c files (c, .error e)

theorem reload_reloadCookie (hcookie : c.cookie = some path) (files : CookieFiles) :
    Reload path c files (c.reloadCookie files) := by
  simp only [reloadCookie, hcookie]
  split
  case h_1 hgone => exact .missing hgone
  case h_2 contents hthere =>
    split
    case h_1 credentials hread =>
      have hgiven : GivenBy (files path) credentials := by
        rw [hthere]
        exact (ofCookie_some_eq_ok_iff path).1 hread
      rw [← hcookie]
      exact .renewed hgiven
    case h_2 e hfailed =>
      apply Reload.refused
      · rw [hthere]
        exact Option.some_ne_none contents
      · intro other hgiven
        rw [hthere, ← ofCookie_some_eq_ok_iff path, hfailed] at hgiven
        cases hgiven

def reloadAll (c : NodeClient) (states : List CookieFiles) : NodeClient :=
  states.foldl (fun c files => (c.reloadCookie files).1) c

/-- Of these states of the files, the last one in which the cookie file gave any credentials is one
in which it gave these. -/
inductive Latest (path : Path) : List CookieFiles → Credentials → Prop
  | intro {before files after credentials} (hgiven : GivenBy (files path) credentials)
      (hsince : ∀ later ∈ after, ∀ other, ¬ GivenBy (later path) other) :
      Latest path (before ++ files :: after) credentials

theorem Latest.concat {states : List CookieFiles} {credentials : Credentials}
    (h : Latest path states credentials) (hnone : ∀ other, ¬ GivenBy (files path) other) :
    Latest path (states ++ [files]) credentials := by
  cases h with
  | @intro before given_files after _ hgiven hsince =>
    rw [List.append_assoc, List.cons_append]
    apply Latest.intro hgiven
    intro later hmem
    rcases List.mem_append.1 hmem with hmem | hmem
    · exact hsince later hmem
    · rw [List.mem_singleton.1 hmem]
      exact hnone

theorem Reload.latest {states : List CookieFiles} {r : NodeClient × Except Failure Bool}
    (h : Reload path c files r) (hnow : Latest path states c.credentials) :
    Latest path (states ++ [files]) r.1.credentials ∧ r.1.cookie = c.cookie := by
  cases h with
  | missing hgone =>
    refine ⟨hnow.concat ?_, rfl⟩
    rw [hgone]
    exact not_givenBy_none
  | renewed hgiven => exact ⟨.intro hgiven nofun, rfl⟩
  | refused hthere hnone => exact ⟨hnow.concat hnone, rfl⟩

theorem latest_reloadAll {states : List CookieFiles} (hcookie : c.cookie = some path)
    (hnow : Latest path states c.credentials) (more : List CookieFiles) :
    Latest path (states ++ more) (c.reloadAll more).credentials ∧
      (c.reloadAll more).cookie = some path := by
  induction more generalizing c states with
  | nil =>
    rw [List.append_nil]
    exact ⟨hnow, hcookie⟩
  | cons files more ih =>
    obtain ⟨hnext, hkept⟩ := (reload_reloadCookie hcookie files).latest hnow
    have hlater := ih (hkept.trans hcookie) hnext
    rw [List.append_assoc] at hlater
    exact hlater

theorem reloadCookie_of_configured (hcookie : c.cookie = none) (files : CookieFiles) :
    c.reloadCookie files = (c, .ok false) := by
  simp only [reloadCookie, hcookie]

theorem reloadAll_of_configured (hcookie : c.cookie = none) (states : List CookieFiles) :
    c.reloadAll states = c := by
  induction states with
  | nil => rfl
  | cons files states ih =>
    rw [reloadAll, List.foldl_cons, reloadCookie_of_configured hcookie]
    exact ih

/-- A client is made with the credentials of its configuration, or with those that its cookie file
gives. -/
theorem ofConfig_eq_ok {rpc : RpcConfig} {cookie : Option Path}
    (hmade : ofConfig rpc cookie files = .ok c) :
    (rpc.user ≠ "" ∧ rpc.password ≠ "" →
      c.cookie = none ∧ c.credentials = ⟨rpc.user, rpc.password⟩) ∧
    (¬ (rpc.user ≠ "" ∧ rpc.password ≠ "") → ∃ path, cookie = some path ∧
      c.cookie = some path ∧ GivenBy (files path) c.credentials) := by
  unfold ofConfig at hmade
  split at hmade
  case isTrue hconfigured =>
    cases hmade
    exact ⟨fun _ => ⟨rfl, rfl⟩, absurd hconfigured⟩
  case isFalse hunconfigured =>
    refine ⟨fun hconfigured => absurd hconfigured hunconfigured, fun _ => ?_⟩
    cases cookie with
    | none => cases hmade
    | some path =>
      simp only at hmade
      cases hthere : files path with
      | none =>
        rw [hthere] at hmade
        cases hmade
      | some bytes =>
        split at hmade
        case h_1 credentials hread =>
          cases hmade
          rw [hthere] at hread
          exact ⟨path, rfl, rfl, hthere ▸ (ofCookie_some_eq_ok_iff _).1 hread⟩
        case h_2 => cases hmade

/-- However often the cookie file is read again, and whatever states it is found in, a client with
configured credentials keeps them, and any other client has the credentials that the file gave last,
be it when the client was made. Every reload replaces them by what the file gives, or else leaves
the client as it is and says that there is no file or what is wrong with it. The next call uses the
credentials that the client then has. -/
theorem credentials_latest {rpc : RpcConfig} {cookie : Option Path}
    (hmade : ofConfig rpc cookie files = .ok c) (states : List CookieFiles) :
    let now := c.reloadAll states
    (rpc.user ≠ "" ∧ rpc.password ≠ "" →
      now.credentials = ⟨rpc.user, rpc.password⟩ ∧ now = c ∧
        ∀ next, now.reloadCookie next = (now, .ok false)) ∧
    (¬ (rpc.user ≠ "" ∧ rpc.password ≠ "") → ∃ path, cookie = some path ∧
      Latest path (files :: states) now.credentials ∧
        ∀ next, Reload path now next (now.reloadCookie next)) ∧
    ∀ (α : Type) (q : Query α), (now.request q).authorization = now.credentials.authorization := by
  intro now
  obtain ⟨hconfigured, hunconfigured⟩ := ofConfig_eq_ok hmade
  refine ⟨?_, ?_, fun _ _ => rfl⟩
  · intro hboth
    obtain ⟨hnone, hcredentials⟩ := hconfigured hboth
    have hsame : now = c := reloadAll_of_configured hnone states
    rw [hsame]
    exact ⟨hcredentials, rfl, reloadCookie_of_configured hnone⟩
  · intro hmissing
    obtain ⟨path, rfl, hkept, hgiven⟩ := hunconfigured hmissing
    have hfirst : Latest path ([] ++ [files]) c.credentials := .intro hgiven nofun
    obtain ⟨hlatest, hcookie⟩ := latest_reloadAll hkept hfirst states
    exact ⟨path, rfl, hlatest, reload_reloadCookie hcookie⟩

/-- A cookie whose password has a colon, and then an empty file, no file, and one without a
password. -/
theorem credentials_latest_half_written :
    let path : Path := ⟨"/node/.cookie"⟩
    let holding (text : String) : CookieFiles := fun p =>
      if p = path then some (utf8 text.toList) else none
    let files := holding " __cookie__:s3:cret\r\nignored"
    let c : NodeClient := ⟨urlOf default, some path, ⟨"__cookie__", "s3:cret"⟩⟩
    let states := [holding "", fun _ => none, holding "__cookie__"]
    ofConfig default (some path) files = .ok c ∧
      Latest path (files :: states) (c.reloadAll states).credentials ∧
        ∀ next, Reload path (c.reloadAll states) next ((c.reloadAll states).reloadCookie next) := by
  intro path holding files c states
  have hgiven : GivenBy (files path) c.credentials := by
    have hfront : c.credentials.written.head? = some '_' := by decide
    have hback : c.credentials.written.getLast? = some 't' := by decide
    apply GivenBy.intro [' '] ['\r'] ('\n' :: "ignored".toList)
    case hbytes => decide
    case hline => decide
    case hends => simp
    case hleft_blank => exact List.forall_mem_singleton.2 rfl
    case hright_blank => exact List.forall_mem_singleton.2 rfl
    case htrimmed => exact ⟨by simp [hfront, isBlank], by simp [hback, isBlank]⟩
    case huser => decide
  have hthere : files path = some (utf8 " __cookie__:s3:cret\r\nignored".toList) := if_pos rfl
  have hmade : ofConfig default (some path) files = .ok c := by
    rw [hthere] at hgiven
    rw [ofConfig, if_neg (by decide)]
    simp only [hthere, (ofCookie_some_eq_ok_iff _).2 hgiven]
    rfl
  obtain ⟨-, hunconfigured, -⟩ := credentials_latest hmade states
  obtain ⟨_, hsame, hlatest, hreloads⟩ := hunconfigured (by decide)
  cases hsame
  exact ⟨hmade, hlatest, hreloads⟩

end NodeClient

end PlotMiner
