import PlotMiner.Proofs.Json.Record

/-!
# What a record asks of its source

An object is read as a record exactly when all of its names mean something, no field of the record
is there twice, and the record can be built from the fields that are there
(`Record.Fair.read_object_iff`). An array is read as one exactly when it has no more items than the
record has fields and the record can be built with the items taken as its fields in order
(`Record.Listed.read_array_iff`). In both cases a field that is there has to be decoded, and one
that is not takes its default (`Record.ofFields_andField_iff`). For a document, these are the parts
that it offers (`Record.Listed.read_excerpt_iff`).
-/

namespace PlotMiner.Json

namespace Record

variable {S : Type} {α β : Type}

/-- A record is built from the fields that it knows, and only when each of them passes its check. -/
structure Fair (r : Record S α) : Prop where
  own (found other : String → Option S) (hsame : ∀ f ∈ r.fields, other f.1 = found f.1) :
    r.ofFields other = r.ofFields found
  checked (found : String → Option S) (a : α) (hbuilt : r.ofFields found = .ok a)
    (f : String × (S → Except DecodeError Unit)) (hknown : f ∈ r.fields) (s : S)
    (hpresent : found f.1 = some s) : f.2 s = .ok ()

theorem fair_pure (a : α) : (pure a : Record S α).Fair := ⟨fun _ _ _ => rfl, nofun⟩

theorem ofFields_andField_iff {r : Record S (α → β)} {name : String}
    {item : S → Except DecodeError α} {default : Option α} {found : String → Option S} {b : β} :
    (r.andField name item default).ofFields found = .ok b ↔
      ∃ f a, r.ofFields found = .ok f ∧ b = f a ∧
        match found name with
        | some s => item s = .ok a
        | none => default = some a := by
  constructor
  · intro hbuilt
    obtain ⟨f, hbefore, hbuilt⟩ := bind_eq_ok.1 hbuilt
    cases hhere : found name with
    | some s =>
      rw [hhere] at hbuilt
      obtain ⟨a, hvalue, hmade⟩ := bind_eq_ok.1 hbuilt
      cases hmade
      exact ⟨f, a, hbefore, rfl, hvalue⟩
    | none =>
      rw [hhere] at hbuilt
      cases default with
      | none => cases hbuilt
      | some a =>
        cases hbuilt
        exact ⟨f, a, hbefore, rfl, rfl⟩
  · rintro ⟨f, a, hbefore, rfl, hhere⟩
    refine bind_eq_ok.2 ⟨f, hbefore, ?_⟩
    cases hthere : found name with
    | some s =>
      rw [hthere] at hhere
      exact bind_eq_ok.2 ⟨a, hhere, rfl⟩
    | none =>
      rw [hthere] at hhere
      cases hhere
      rfl

theorem Fair.andField {r : Record S (α → β)} (h : r.Fair) (name : String)
    (item : S → Except DecodeError α) (default : Option α) :
    (r.andField name item default).Fair where
  own found other hsame := by
    have hbefore := h.own found other fun f hknown => hsame f (List.mem_append_left _ hknown)
    have hhere : other name = found name :=
      hsame (name, _) (List.mem_append_right _ List.mem_cons_self)
    simp only [Record.andField, hbefore, hhere]
  checked found b hbuilt f hknown s hpresent := by
    obtain ⟨g, a, hbefore, -, hhere⟩ := ofFields_andField_iff.1 hbuilt
    obtain hknown | hknown := List.mem_append.1 hknown
    · exact h.checked found g hbefore f hknown s hpresent
    · obtain rfl := List.mem_singleton.1 hknown
      rw [hpresent] at hhere
      simp only at hhere
      simp only [hhere]
      rfl

theorem Fair.field [Source S] [Decode α] {r : Record S (α → β)} (h : r.Fair) (name : String) :
    (r.field name).Fair := h.andField name decode none

theorem Fair.fieldD [Source S] [Decode α] {r : Record S (α → β)} (h : r.Fair) (name : String)
    (default : α) : (r.fieldD name default).Fair := h.andField name decode (some default)

theorem of_collect_known {r : Record S α} {name : String} {check : S → Except DecodeError Unit}
    (hknown : r.fields.lookup name = some check) {s : S}
    {rest : List (Except DecodeError String × S)} {acc found : List (String × S)}
    (h : r.collect ((.ok name, s) :: rest) acc = .ok found) :
    (∀ f ∈ acc, f.1 ≠ name) ∧ r.collect rest ((name, s) :: acc) = .ok found := by
  rw [collect] at h
  simp only [bind, Except.bind, hknown] at h
  split at h
  case isTrue => cases h
  case isFalse hnew =>
    split at h
    case h_1 => cases h
    case h_2 =>
      refine ⟨fun f hmem hsame => ?_, h⟩
      exact hnew (List.any_eq_true.2 ⟨f, hmem, decide_eq_true hsame⟩)

/-- Fields are collected only in the way of `collect_eq`. -/
theorem exists_of_collect {r : Record S α} {entries : List (Except DecodeError String × S)}
    {acc found : List (String × S)} (h : r.collect entries acc = .ok found) :
    ∃ fields : List (String × S), entries = (fields.map fun (k, s) => (.ok k, s)) ∧
      Distinct (fields.filter r.knows) ∧
      (∀ f ∈ fields.filter r.knows, ∀ g ∈ acc, g.1 ≠ f.1) ∧
      found = acc.reverse ++ fields.filter r.knows := by
  -- by induction on the entries: a field of the record is new both to `acc` and to what follows it
  induction entries generalizing acc with
  | nil =>
    cases h
    exact ⟨[], rfl, List.nodup_nil, nofun, (List.append_nil _).symm⟩
  | cons entry rest ih =>
    obtain ⟨k, s⟩ := entry
    cases k with
    | error e => cases h
    | ok k =>
      cases hknown : r.fields.lookup k with
      | none =>
        have hother : ¬ r.knows (k, s) = true := by simp [knows, hknown]
        rw [collect_unknown hknown] at h
        obtain ⟨fields, rfl, hdistinct, hfresh, hall⟩ := ih h
        refine ⟨(k, s) :: fields, rfl, ?_⟩
        rw [List.filter_cons_of_neg hother]
        exact ⟨hdistinct, hfresh, hall⟩
      | some check =>
        have hown : r.knows (k, s) = true := by simp [knows, hknown]
        obtain ⟨hnew, h⟩ := of_collect_known hknown h
        obtain ⟨fields, rfl, hdistinct, hfresh, hall⟩ := ih h
        refine ⟨(k, s) :: fields, rfl, ?_⟩
        rw [List.filter_cons_of_pos hown]
        refine ⟨List.nodup_cons.2 ⟨?_, hdistinct⟩, ?_, by simpa using hall⟩
        · intro hagain
          obtain ⟨f, hf, hsame⟩ := List.mem_map.1 hagain
          exact hfresh f hf (k, s) List.mem_cons_self hsame.symm
        · intro f hf g hg
          rcases List.mem_cons.1 hf with rfl | hf
          · exact hnew g hg
          · exact hfresh f hf g (List.mem_cons_of_mem _ hg)

/-- An object is read as what its fields give, if all names mean something and none of the record's
own is there twice. -/
theorem Fair.read_object_iff [Source S] {r : Record S α} (h : r.Fair) (type : String) {s : S}
    {entries : List (Except DecodeError String × S)}
    (hview : Source.view s = .ok (.object (.ok entries))) {a : α} :
    read type r s = .ok a ↔
      ∃ fields : List (String × S), entries = (fields.map fun (k, sub) => (.ok k, sub)) ∧
        Distinct (fields.filter r.knows) ∧
        r.ofFields (fun name => fields.lookup name) = .ok a := by
  constructor
  · intro hdone
    obtain ⟨_, hseen, hdone⟩ := bind_eq_ok.1 hdone
    cases hview.symm.trans hseen
    obtain ⟨_, ⟨⟩, hdone⟩ := bind_eq_ok.1 hdone
    obtain ⟨found, hcollected, hbuilt⟩ := bind_eq_ok.1 hdone
    obtain ⟨fields, rfl, hdistinct, -, rfl⟩ := exists_of_collect hcollected
    refine ⟨fields, rfl, hdistinct, ?_⟩
    rw [← hbuilt]
    exact h.own _ _ fun _ hknown => (lookup_filter_knows hknown fields).symm
  · rintro ⟨fields, rfl, hdistinct, hbuilt⟩
    refine read_object type hview hdistinct ⟨fun other hsame => ?_, h.checked _ a hbuilt⟩
    rw [h.own (fun name => fields.lookup name) other hsame, hbuilt]

theorem Fair.read_distinct_iff [Source S] {r : Record S α} (h : r.Fair) (type : String) {s : S}
    {fields : List (String × S)}
    (hview : Source.view s = .ok (.object (.ok (fields.map fun (k, sub) => (.ok k, sub)))))
    (hdistinct : Distinct fields) {a : α} :
    read type r s = .ok a ↔ r.ofFields (fun name => fields.lookup name) = .ok a := by
  rw [h.read_object_iff type hview]
  constructor
  · rintro ⟨others, hsame, -, hbuilt⟩
    rwa [meant_injective.list_map hsame]
  · intro hbuilt
    exact ⟨fields, rfl, hdistinct.filter _, hbuilt⟩

def names (r : Record S α) : List String := r.fields.map (·.1)

/-- The items of an array, each under the name of the field in whose place it is. -/
def listed (r : Record S α) (items : List S) (name : String) : Option S :=
  (r.names.zip items).lookup name

/-- A record is built from the items of an array as from the fields in whose places they are, and
what is left over are the items after the last field. -/
structure Listed (r : Record S α) : Prop extends Fair r where
  ofItems_iff (position : Nat) (want : String) (items rest : List S) (a : α) :
    r.ofItems position want items = .ok (a, rest) ↔
      rest = items.drop r.fields.length ∧ r.ofFields (r.listed items) = .ok a

theorem listed_pure (a : α) : (pure a : Record S α).Listed where
  toFair := fair_pure a
  ofItems_iff position want items rest b := by
    simp [Record.pure, eq_comm, and_comm]

theorem lookup_zip_concat {names : List String} {name : String} (hnew : name ∉ names)
    (items : List S) (other : String) :
    ((names ++ [name]).zip items).lookup other =
      if other = name then items[names.length]? else (names.zip items).lookup other := by
  induction names generalizing items with
  | nil =>
    cases items with
    | nil => simp
    | cons s rest =>
      by_cases hsame : other = name
      · simp [hsame]
      · simp [List.lookup_cons, beq_false_of_ne hsame, hsame]
  | cons k names ih =>
    obtain ⟨hdifferent, hnew⟩ := not_or.1 (mt List.mem_cons.2 hnew)
    cases items with
    | nil => simp
    | cons s rest =>
      rw [List.cons_append, List.zip_cons_cons, List.lookup_cons, ih hnew, List.zip_cons_cons,
        List.lookup_cons]
      by_cases hsame : other = k
      · subst hsame
        simp [Ne.symm hdifferent]
      · simp [beq_false_of_ne hsame]

section

variable {r : Record S (α → β)} {name : String}

theorem Listed.andField (h : r.Listed) (hnew : name ∉ r.names) (item : S → Except DecodeError α)
    (default : Option α) : (r.andField name item default).Listed where
  toFair := h.toFair.andField name item default
  ofItems_iff position want items rest b := by
    have hlength : r.names.length = r.fields.length := List.length_map _
    have hfound (other : String) : (r.andField name item default).listed items other =
        if other = name then items[r.fields.length]? else r.listed items other := by
      rw [← hlength]
      simpa [listed, names, Record.andField] using lookup_zip_concat hnew items other
    have hbefore : r.ofFields ((r.andField name item default).listed items) =
        r.ofFields (r.listed items) := by
      apply h.own
      intro f hknown
      rw [hfound, if_neg]
      intro hsame
      exact hnew (hsame ▸ List.mem_map_of_mem hknown)
    have hdrop : items.drop (r.andField name item default).fields.length =
        (items.drop r.fields.length).tail := by
      simp [Record.andField]
    rw [ofFields_andField_iff, hbefore, hfound, if_pos rfl, hdrop, ← List.head?_drop]
    constructor
    · intro hbuilt
      obtain ⟨⟨f, left⟩, hfirst, hbuilt⟩ := bind_eq_ok.1 hbuilt
      obtain ⟨rfl, hvalue⟩ := (h.ofItems_iff position want items left f).1 hfirst
      generalize items.drop r.fields.length = left at hbuilt ⊢
      cases left with
      | cons s left =>
        obtain ⟨a, hdecoded, hmade⟩ := bind_eq_ok.1 hbuilt
        cases hmade
        exact ⟨rfl, f, a, hvalue, rfl, hdecoded⟩
      | nil =>
        cases default with
        | none => cases hbuilt
        | some a =>
          cases hbuilt
          exact ⟨rfl, f, a, hvalue, rfl, rfl⟩
    · rintro ⟨rfl, f, a, hvalue, rfl, hlast⟩
      have hfirst := (h.ofItems_iff position want items _ f).2 ⟨rfl, hvalue⟩
      refine bind_eq_ok.2 ⟨_, hfirst, ?_⟩
      generalize items.drop r.fields.length = left at hlast ⊢
      cases left with
      | cons s left => exact bind_eq_ok.2 ⟨a, hlast, rfl⟩
      | nil =>
        cases hlast
        rfl

theorem Listed.field [Source S] [Decode α] (h : r.Listed) (hnew : name ∉ r.names) :
    (r.field name).Listed := h.andField hnew decode none

theorem Listed.fieldD [Source S] [Decode α] (h : r.Listed) (hnew : name ∉ r.names) (default : α) :
    (r.fieldD name default).Listed := h.andField hnew decode (some default)

end

theorem Listed.read_array_iff [Source S] {r : Record S α} (h : r.Listed) (type : String) {s : S}
    {items : List S} (hview : Source.view s = .ok (.array (.ok items))) {a : α} :
    read type r s = .ok a ↔
      items.length ≤ r.names.length ∧ r.ofFields (r.listed items) = .ok a := by
  have hlength : r.names.length = r.fields.length := List.length_map _
  rw [hlength]
  constructor
  · intro hdone
    obtain ⟨_, hseen, hdone⟩ := bind_eq_ok.1 hdone
    cases hview.symm.trans hseen
    obtain ⟨_, ⟨⟩, hdone⟩ := bind_eq_ok.1 hdone
    obtain ⟨⟨b, left⟩, hbuilt, hdone⟩ := bind_eq_ok.1 hdone
    obtain ⟨rfl, hvalue⟩ := (h.ofItems_iff _ _ items left b).1 hbuilt
    dsimp only at hdone
    split at hdone
    case isTrue hall =>
      cases hdone
      exact ⟨List.drop_eq_nil_iff.1 (List.isEmpty_iff.1 hall), hvalue⟩
    case isFalse => cases hdone
  · rintro ⟨hfew, hvalue⟩
    refine bind_eq_ok.2 ⟨_, hview, ?_⟩
    refine bind_eq_ok.2 ⟨_, rfl, ?_⟩
    refine bind_eq_ok.2 ⟨_, (h.ofItems_iff 0 _ items _ a).2 ⟨rfl, hvalue⟩, ?_⟩
    exact if_pos (List.isEmpty_iff.2 (List.drop_eq_nil_iff.2 hfew))

end Record

/-- The names of these fields mean something, namely these texts. -/
def Meant (fields : List (List Piece × Document)) (named : List (String × Document)) : Prop :=
  List.Forall₂ (fun f g => stringOf f.1 = .ok g.1 ∧ f.2 = g.2) fields named

/-- A document offers these parts to a record with fields of these names. Either it is an object
with each of its names meaning something and each of the record's at most once, or it is an array
with the parts in the order of the fields, of which the last ones may be left out. -/
inductive Document.Offers (names : List String) : Document → (String → Option Document) → Prop
  | object {fields named} (hmeant : Meant fields named)
      (honce : Distinct (named.filter fun f => f.1 ∈ names)) :
      Offers names (.object fields) fun name => named.lookup name
  | array {items} (hfew : items.length ≤ names.length) :
      Offers names (.array items) fun name => (names.zip items).lookup name

theorem meant_iff {room : Nat} {fields : List (List Piece × Document)}
    {subs : List (String × Excerpt)} :
    fields.map (fun (name, d) => (LiteralError.lift (stringOf name), Excerpt.mk room d)) =
        subs.map (fun (k, sub) => (.ok k, sub)) ↔
      ∃ named, Meant fields named ∧ subs = named.map fun (k, d) => (k, Excerpt.mk room d) := by
  constructor
  · intro hsame
    induction fields generalizing subs with
    | nil =>
      obtain rfl := List.map_eq_nil_iff.1 hsame.symm
      exact ⟨[], .nil, rfl⟩
    | cons f rest ih =>
      obtain ⟨name, d⟩ := f
      cases subs with
      | nil => cases hsame
      | cons sub subs =>
        obtain ⟨k, sub⟩ := sub
        obtain ⟨hfirst, htail⟩ := List.cons.inj hsame
        obtain ⟨htext, rfl⟩ := Prod.mk.inj hfirst
        obtain ⟨named, hmeant, rfl⟩ := ih htail
        exact ⟨(k, d) :: named, .cons ⟨lift_eq_ok.1 htext, rfl⟩ hmeant, rfl⟩
  · rintro ⟨named, hmeant, rfl⟩
    induction hmeant with
    | nil => rfl
    | @cons f g _ _ hfirst _ ih =>
      obtain ⟨name, d⟩ := f
      obtain ⟨k, d'⟩ := g
      obtain ⟨htext, rfl⟩ : stringOf name = .ok k ∧ d = d' := hfirst
      rw [List.map_cons, List.map_cons, List.map_cons, ih]
      simp only [htext]
      rfl

namespace Record

variable {α : Type} {r : Record Excerpt α}

theorem knows_eq (r : Record Excerpt α) {T : Type} (f : String × T) :
    r.knows f = decide (f.1 ∈ r.names) := by
  rw [Bool.eq_iff_iff, knows, List.lookup_isSome_iff, decide_eq_true_iff, names, List.mem_map]
  constructor
  · rintro ⟨g, hmem, hsame⟩
    exact ⟨g, hmem, (eq_of_beq hsame).symm⟩
  · rintro ⟨g, hmem, hsame⟩
    exact ⟨g, hmem, beq_iff_eq.2 hsame.symm⟩

theorem distinct_filter_knows {room : Nat} {named : List (String × Document)} :
    Distinct ((named.map fun (k, d) => (k, Excerpt.mk room d)).filter r.knows) ↔
      Distinct (named.filter fun f => f.1 ∈ r.names) := by
  rw [Distinct, Distinct, List.filter_map, List.map_map]
  simp only [Function.comp_def, knows_eq]

theorem listed_map (room : Nat) (items : List Document) :
    r.listed (items.map (Excerpt.mk room)) =
      fun name => ((r.names.zip items).lookup name).map (Excerpt.mk room) := by
  funext name
  rw [listed, List.zip_map_right, ← lookup_map_snd]
  rfl

theorem lookup_map_mk (room : Nat) (named : List (String × Document)) :
    (fun name => (named.map fun (k, d) => (k, Excerpt.mk room d)).lookup name) =
      fun name => (named.lookup name).map (Excerpt.mk room) :=
  funext fun _ => lookup_map_snd _

section

variable {β : Type} [Decode α] {r : Record Excerpt (α → β)} {name : String} {room : Nat}
  {part : String → Option Document} {b : β}

theorem ofFields_part_iff :
    (r.field name).ofFields (fun name => (part name).map (Excerpt.mk room)) = .ok b ↔
      ∃ f a, r.ofFields (fun name => (part name).map (Excerpt.mk room)) = .ok f ∧ b = f a ∧
        ∃ d, part name = some d ∧ decode (Excerpt.mk room d) = .ok a := by
  rw [Record.field, ofFields_andField_iff]
  cases part name <;> simp

theorem ofFields_partD_iff {default : α} :
    (r.fieldD name default).ofFields (fun name => (part name).map (Excerpt.mk room)) = .ok b ↔
      ∃ f a, r.ofFields (fun name => (part name).map (Excerpt.mk room)) = .ok f ∧ b = f a ∧
        match part name with
        | some d => decode (Excerpt.mk room d) = .ok a
        | none => a = default := by
  rw [Record.fieldD, ofFields_andField_iff]
  cases part name <;> simp [eq_comm]

end

/-- A document is read as a record exactly if it offers parts from which the record can be built. -/
theorem Listed.read_excerpt_iff (h : r.Listed) (type : String) {room : Nat} {d : Document} {a : α} :
    read type r (Excerpt.mk (room + 1) d) = .ok a ↔
      ∃ part, d.Offers r.names part ∧
        r.ofFields (fun name => (part name).map (Excerpt.mk room)) = .ok a := by
  constructor
  · intro hdone
    cases d with
    | null | bool _ => cases hdone
    | number _ | string _ =>
      obtain ⟨_, hseen, hdone⟩ := bind_eq_ok.1 hdone
      obtain ⟨_, -, hmade⟩ := bind_eq_ok.1 hseen
      cases hmade
      cases hdone
    | array items =>
      obtain ⟨hfew, hbuilt⟩ := (h.read_array_iff type rfl).1 hdone
      rw [List.length_map] at hfew
      rw [listed_map] at hbuilt
      exact ⟨_, .array hfew, hbuilt⟩
    | object fields =>
      obtain ⟨subs, hsame, honce, hbuilt⟩ := (h.read_object_iff type rfl).1 hdone
      obtain ⟨named, hmeant, rfl⟩ := meant_iff.1 hsame
      rw [lookup_map_mk] at hbuilt
      exact ⟨_, .object hmeant (distinct_filter_knows.1 honce), hbuilt⟩
  · rintro ⟨part, hoffers, hbuilt⟩
    cases hoffers with
    | array hfew =>
      rw [← listed_map] at hbuilt
      refine (h.read_array_iff type rfl).2 ⟨?_, hbuilt⟩
      rwa [List.length_map]
    | object hmeant honce =>
      rw [← lookup_map_mk] at hbuilt
      apply (h.read_object_iff type rfl).2
      exact ⟨_, meant_iff.2 ⟨_, hmeant, rfl⟩, distinct_filter_knows.2 honce, hbuilt⟩

end Record

end PlotMiner.Json
