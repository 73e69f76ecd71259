import Mathlib.Data.Finset.Card
import PlotMiner.Proofs.Timelord.Spelling
import PlotMiner.Proofs.Timelord.Upkeep

/-!
# Which endpoints a fleet has

Starting the endpoints of a list adds those that the fleet does not have yet, each once and with a
link of its own, and leaves the entries that are there already. So it only matters which endpoints
the texts of the list mean, and neither how they are written nor in which order or how often
(`startAll_endpoints`). That a fleet has no endpoint twice is kept by every event (`nodup_handle`).
-/

namespace PlotMiner.Timelord

/-- The endpoints that are written in a list; what is no endpoint is skipped. -/
def Endpoint.named (texts : List String) (port : UInt16) : List Endpoint :=
  texts.filterMap fun text => (Endpoint.parse text port).toOption

theorem Endpoint.mem_named {texts : List String} {port : UInt16} {e : Endpoint} :
    e ∈ named texts port ↔ ∃ text ∈ texts, parse text port = .ok e := by
  rw [named, List.mem_filterMap]
  refine exists_congr fun text => and_congr_right fun _ => ?_
  cases Endpoint.parse text port <;> simp [Except.toOption]

theorem Endpoint.mem_named_iff_spelled {texts : List String} {port : UInt16} {e : Endpoint} :
    e ∈ named texts port ↔ ∃ s : Spelling, s.text ∈ texts ∧ s.endpoint port = e := by
  rw [mem_named]
  refine ⟨?_, ?_⟩
  · rintro ⟨text, hmem, hwritten⟩
    obtain ⟨s, rfl, hmeant⟩ := exists_spelling hwritten
    exact ⟨s, hmem, hmeant⟩
  · rintro ⟨s, hmem, rfl⟩
    exact ⟨s.text, hmem, s.parse_text port⟩

namespace Fleet

def endpoints (f : Fleet) : List Endpoint := f.entries.map Prod.fst

theorem length_putEntry {k : Endpoint} {entries : List (Endpoint × FleetEntry)} (entry : FleetEntry)
    (habsent : entries.lookup k = none) :
    (putEntry k entry entries).length = entries.length + 1 := by
  induction entries with
  | nil => rfl
  | cons head rest ih =>
    obtain ⟨first, old⟩ := head
    rw [lookup_cons_ite] at habsent
    split at habsent
    case isTrue => cases habsent
    case isFalse hother =>
      rw [putEntry, if_neg (Ne.symm hother), List.length_cons, ih habsent, List.length_cons]

section

variable (f : Fleet) (texts : List String) (port : UInt16) {e : Endpoint}

theorem length_endpoints : f.endpoints.length = f.size := List.length_map ..

theorem mem_endpoints : e ∈ f.endpoints ↔ f.find? e ≠ none := by
  rw [find?, Ne, lookup_eq_none_iff_not_mem, Decidable.not_not, endpoints]

theorem mem_endpoints_startAll :
    e ∈ (f.startAll texts port).endpoints ↔
      e ∈ f.endpoints ∨ ∃ text ∈ texts, Endpoint.parse text port = .ok e := by
  have hadded := added_startAll f texts port
  rw [mem_endpoints, mem_endpoints]
  refine ⟨?_, ?_⟩
  · intro hthere
    obtain hsame | ⟨-, hwritten, -⟩ := hadded.entry e
    · exact .inl (hsame ▸ hthere)
    · exact .inr hwritten
  · rintro (hthere | hwritten)
    · obtain hsame | ⟨habsent, -⟩ := hadded.entry e
      · exact hsame ▸ hthere
      · exact absurd habsent hthere
    · exact hadded.present e hwritten

theorem nextId_add (k : Endpoint) : (f.add k).nextId + f.size = f.nextId + (f.add k).size := by
  unfold add
  split
  case h_1 => rfl
  case h_2 habsent =>
    have hlonger : (f.connect k).size = f.size + 1 := length_putEntry _ habsent
    have hnext : (f.connect k).nextId = f.nextId + 1 := rfl
    omega

theorem nextId_startAll :
    (f.startAll texts port).nextId + f.size = f.nextId + (f.startAll texts port).size := by
  induction texts generalizing f with
  | nil => rfl
  | cons text rest ih =>
    unfold startAll
    rw [List.foldl_cons]
    split
    case h_1 k _ =>
      have hfirst := f.nextId_add k
      have hlater := ih (f.add k)
      unfold startAll at hlater
      omega
    case h_2 => exact ih f

end

/-- After the endpoints of a list were started, a fleet has those it had before and those that the
list names, and the number of them is what it has counted. An entry that was there before, whether
or not it waits for a new link, is there still, and each new endpoint has one new link. So for the
endpoints it only matters which of them the texts spell. -/
theorem startAll_endpoints {f : Fleet} (honce : f.endpoints.Nodup) (texts : List String)
    (port : UInt16) :
    (∀ e, e ∈ (f.startAll texts port).endpoints ↔
      e ∈ f.endpoints ∨ ∃ text ∈ texts, Endpoint.parse text port = .ok e) ∧
    (f.startAll texts port).endpoints.Nodup ∧
    (∀ e entry, f.find? e = some entry → (f.startAll texts port).find? e = some entry) ∧
    (∀ e ∈ (f.startAll texts port).endpoints, e ∉ f.endpoints →
      ∃ id, f.nextId ≤ id ∧ id < (f.startAll texts port).nextId ∧
        (f.startAll texts port).find? e = some (.fresh id e)) ∧
    (f.startAll texts port).nextId + f.size = f.nextId + (f.startAll texts port).size ∧
    (f.startAll texts port).size =
      (f.endpoints.toFinset ∪ (Endpoint.named texts port).toFinset).card ∧
    ∀ texts' : List String,
      (∀ e, (∃ s : Spelling, s.text ∈ texts' ∧ s.endpoint port = e) ↔
        ∃ s : Spelling, s.text ∈ texts ∧ s.endpoint port = e) →
      ∀ e, e ∈ (f.startAll texts' port).endpoints ↔ e ∈ (f.startAll texts port).endpoints := by
  have honce' : (f.startAll texts port).endpoints.Nodup :=
    f.nodup_handle default 0 (.startAll texts port) honce
  have hadded := added_startAll f texts port
  refine ⟨fun e => f.mem_endpoints_startAll texts port, honce', ?_, ?_,
    f.nextId_startAll texts port, ?_, ?_⟩
  · intro e entry hfound
    obtain hsame | ⟨habsent, -⟩ := hadded.entry e
    · exact hsame.trans hfound
    · cases hfound.symm.trans habsent
  · intro e hthere habsent
    obtain hsame | ⟨-, -, hnew⟩ := hadded.entry e
    · rw [mem_endpoints, hsame, ← mem_endpoints] at hthere
      exact absurd hthere habsent
    · exact hnew
  · rw [← length_endpoints, ← List.toFinset_card_of_nodup honce']
    congr 1
    ext e
    simp [mem_endpoints_startAll, Endpoint.mem_named]
  · intro texts' hsame e
    rw [mem_endpoints_startAll, mem_endpoints_startAll, ← Endpoint.mem_named,
      ← Endpoint.mem_named, Endpoint.mem_named_iff_spelled, Endpoint.mem_named_iff_spelled, hsame]

/-- One endpoint that waits for a new link and is named again, one that is named twice, and three
texts that are no endpoints. The same two are named by another list, in another order. -/
theorem startAll_endpoints_repeated :
    let f := (empty.startAll ["a"] 19191).onError default 0 0 ⟨"a", 19191⟩
    let texts := ["a:+19191", "b", "bad:port", " [b]:019191\t", "[::1]", ":80"]
    let texts' := ["[b]", "a"]
    f.endpoints.Nodup ∧ (f.startAll texts 19191).size = 2 ∧
      (∀ e, e ∈ (f.startAll texts 19191).endpoints ↔ e = ⟨"a", 19191⟩ ∨ e = ⟨"b", 19191⟩) ∧
      f.find? ⟨"a", 19191⟩ = some ⟨(Link.new 0 ⟨"a", 19191⟩).start.exit, true⟩ ∧
      (f.startAll texts 19191).find? ⟨"a", 19191⟩ =
        some ⟨(Link.new 0 ⟨"a", 19191⟩).start.exit, true⟩ ∧
      (∃ id, 1 ≤ id ∧ id < 2 ∧
        (f.startAll texts 19191).find? ⟨"b", 19191⟩ = some (.fresh id ⟨"b", 19191⟩)) ∧
      ∀ e, e ∈ (f.startAll texts' 19191).endpoints ↔ e ∈ (f.startAll texts 19191).endpoints := by
  intro f texts texts'
  have hknown : f.endpoints = [⟨"a", 19191⟩] := by rfl
  have honce : f.endpoints.Nodup := by rw [hknown]; exact List.nodup_singleton _
  have hfound : f.find? ⟨"a", 19191⟩ = some ⟨(Link.new 0 ⟨"a", 19191⟩).start.exit, true⟩ := by rfl
  have hnamed : Endpoint.named texts 19191 =
      [⟨"a", 19191⟩, ⟨"b", 19191⟩, ⟨"b", 19191⟩] := by rfl
  have hnamed' : Endpoint.named texts' 19191 = [⟨"b", 19191⟩, ⟨"a", 19191⟩] := by rfl
  obtain ⟨hmem, -, hkept, hnew, hnumbers, hsize, hsame⟩ := startAll_endpoints honce texts 19191
  have hmem : ∀ e, e ∈ (f.startAll texts 19191).endpoints ↔
      e = ⟨"a", 19191⟩ ∨ e = ⟨"b", 19191⟩ := by
    intro e
    rw [hmem, ← Endpoint.mem_named, hnamed, hknown]
    grind
  have htwo : (f.startAll texts 19191).size = 2 := by
    rw [hsize, hknown, hnamed]
    rfl
  have hnext : (f.startAll texts 19191).nextId = 2 := by
    have hfirst : f.nextId = 1 := rfl
    have hone : f.size = 1 := rfl
    omega
  have hadded := hnew ⟨"b", 19191⟩ ((hmem _).2 (.inr rfl)) (by rw [hknown]; decide)
  rw [hnext] at hadded
  refine ⟨honce, htwo, hmem, hfound, hkept _ _ hfound, hadded, hsame texts' fun e => ?_⟩
  rw [← Endpoint.mem_named_iff_spelled, ← Endpoint.mem_named_iff_spelled, hnamed, hnamed']
  grind

end Fleet

end PlotMiner.Timelord
