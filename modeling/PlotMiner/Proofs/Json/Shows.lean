import Mathlib.Data.List.Forall2
import PlotMiner.Json.Decode
import PlotMiner.Proofs.Json.RoundTrip

/-!
# What a source shows

A source shows a value if a decoder finds in it what the value is made of, the fields of an object
being in any order (`Shows`). A value that shows another one differs from it in the order of fields
only. A legible value has no doubles and no name twice in an object. If a value shows a legible one,
the document of its text does so as well (`Shows.excerpt`), and again the value that the document is
read as (`Shows.value`).
-/

namespace PlotMiner.Json

open Value

section

variable {α β γ : Type} {R R' : α → β → Prop}

theorem forall₂_imp_mem {as : List α} {bs : List β} (h : List.Forall₂ R as bs)
    (himp : ∀ a, ∀ b ∈ bs, R a b → R' a b) : List.Forall₂ R' as bs := by
  induction h with
  | nil => exact .nil
  | cons hfirst _ ih =>
    obtain ⟨hhere, hlater⟩ := List.forall_mem_cons.1 fun b hmem a => himp a b hmem
    exact .cons (hhere _ hfirst) (ih fun a b hmem => hlater b hmem a)

theorem rel_imp_mem {o : Option α} {o' : Option β} (h : Option.Rel R o o')
    (himp : ∀ a b, o' = some b → R a b → R' a b) : Option.Rel R' o o' := by
  cases h with
  | none => exact .none
  | some hrelated => exact .some (himp _ _ rfl hrelated)

theorem rel_map_left {g : γ → α} {o : Option γ} {o' : Option β}
    (h : Option.Rel (fun c b => R (g c) b) o o') : Option.Rel R (o.map g) o' := by
  cases h with
  | none => exact .none
  | some hrelated => exact .some hrelated

variable {subs : List (String × α)} {fields : List (String × β)}

theorem exists_lookup_of_rel (hdistinct : Distinct subs)
    (hsame : ∀ name, Option.Rel R (subs.lookup name) (fields.lookup name)) {name : String} {a : α}
    (hmem : (name, a) ∈ subs) : ∃ b, fields.lookup name = some b ∧ R a b := by
  have hrelated := hsame name
  rw [lookup_of_mem hdistinct hmem] at hrelated
  generalize fields.lookup name = found at hrelated ⊢
  cases hrelated with
  | some hrelated => exact ⟨_, rfl, hrelated⟩

/-- Fields that have the names of others are related to whatever those are related to, name by
name. -/
theorem rel_lookup_of_names {fs : List (String × γ)} {R' : γ → β → Prop}
    (hsame : ∀ name, Option.Rel R (subs.lookup name) (fields.lookup name))
    (hnames : fs.map (·.1) = subs.map (·.1))
    (heach : ∀ f ∈ fs, ∃ b, fields.lookup f.1 = some b ∧ R' f.2 b) (name : String) :
    Option.Rel R' (fs.lookup name) (fields.lookup name) := by
  cases hfound : fs.lookup name with
  | some c =>
    obtain ⟨b, hthere, hrelated⟩ := heach _ (mem_of_lookup hfound)
    rw [hthere]
    exact .some hrelated
  | none =>
    have hrelated := hsame name
    rw [lookup_eq_none_iff_not_mem.2 (hnames ▸ lookup_eq_none_iff_not_mem.1 hfound)] at hrelated
    generalize fields.lookup name = absent at hrelated ⊢
    cases hrelated with
    | none => exact .none

end

inductive Shows {S : Type} [Source S] : S → Value → Prop
  | null {s} (hview : Source.view s = .ok .null) : Shows s .null
  | bool {s b} (hview : Source.view s = .ok (.bool b)) : Shows s (.bool b)
  | number {s n} (hview : Source.view s = .ok (.number n)) : Shows s (.number n)
  | string {s text} (hview : Source.view s = .ok (.string text)) : Shows s (.string text)
  | array {s subs items} (hview : Source.view s = .ok (.array (.ok subs)))
      (hsame : List.Forall₂ Shows subs items) : Shows s (.array items)
  | object {s fields} {subs : List (String × S)}
      (hview : Source.view s = .ok (.object (.ok (subs.map fun (k, sub) => (.ok k, sub)))))
      (hdistinct : Distinct subs)
      (hsame : ∀ name, Option.Rel Shows (subs.lookup name) (fields.lookup name)) :
      Shows s (.object fields)

/-- A value that can be written and read where arrays and objects may be nested `room` deep. -/
inductive Value.Legible : Nat → Value → Prop
  | null {room} : Legible room .null
  | bool {room} (b : Bool) : Legible room (.bool b)
  | int {room n} (h : InRange n) : Legible room (.number (.int n))
  | string {room} (text : String) : Legible room (.string text)
  | array {room items} (h : ∀ v ∈ items, Legible room v) : Legible (room + 1) (.array items)
  | object {room} {fields : List (String × Value)} (hdistinct : Distinct fields)
      (h : ∀ f ∈ fields, Legible room f.2) : Legible (room + 1) (.object fields)

theorem Value.Plain.legible {room : Nat} {v : Value} (h : v.Plain room) : v.Legible room :=
  match v, room with
  | .null, _ => .null
  | .bool b, _ => .bool b
  | .number (.int _), _ => .int h.fits
  | .number (.float _), _ => nomatch h.isExact
  | .string text, _ => .string text
  | .array _, 0 => h.fits.elim
  | .array _, _ + 1 => .array fun _ hmem => (h.of_mem hmem).legible
  | .object _, 0 => h.fits.elim
  | .object _, _ + 1 =>
    have ⟨hordered, hplain⟩ := plain_object_iff.1 h
    .object hordered.distinct fun f hmem => (hplain f hmem).legible

theorem rel_lookup_self {fields : List (String × Value)} (h : ∀ f ∈ fields, Shows f.2 f.2)
    (name : String) : Option.Rel Shows (fields.lookup name) (fields.lookup name) := by
  cases hfound : fields.lookup name with
  | none => exact .none
  | some v => exact .some (h _ (mem_of_lookup hfound))

theorem Value.Legible.shows {room : Nat} {v : Value} (h : v.Legible room) : Shows v v := by
  induction h with
  | null => exact .null rfl
  | bool => exact .bool rfl
  | int => exact .number rfl
  | string => exact .string rfl
  | array hlegible ih => exact .array rfl (List.forall₂_same.2 ih)
  | object hdistinct hlegible ih => exact .object rfl hdistinct (rel_lookup_self ih)

section

variable {S : Type} [Source S] {s : S}

theorem Shows.view_bool {b : Bool} (h : Shows s (.bool b)) : Source.view s = .ok (.bool b) := by
  cases h with
  | bool hview => exact hview

theorem Shows.view_number {n : Number} (h : Shows s (.number n)) :
    Source.view s = .ok (.number n) := by
  cases h with
  | number hview => exact hview

theorem Shows.view_string {text : String} (h : Shows s (.string text)) :
    Source.view s = .ok (.string text) := by
  cases h with
  | string hview => exact hview

end

/-- Fields whose names mean something are known from what is seen of them. -/
theorem meant_injective {S : Type} : Function.Injective fun f : String × S =>
    ((.ok f.1, f.2) : Except DecodeError String × S) := by
  rintro ⟨k, v⟩ ⟨k', v'⟩ hsame
  simpa using hsame

theorem view_injective {v w : Value} (h : Source.view v = Source.view w) : v = w := by
  cases v with
  | object fields =>
    cases w with
    | object fields' =>
      simp only [Source.view, Except.ok.injEq, View.object.injEq] at h
      rw [meant_injective.list_map h]
    | _ => cases h
  | _ =>
    cases w <;> cases h
    rfl

theorem itemDocuments_eq_map (items : List Value) : itemDocuments items = items.map document := by
  induction items with
  | nil => rfl
  | cons v rest ih => rw [itemDocuments, ih, List.map_cons]

theorem map_fieldDocuments (room : Nat) (fields : List (String × Value)) :
    (fieldDocuments fields).map
        (fun (name, d) => (LiteralError.lift (stringOf name), Excerpt.mk room d)) =
      (fields.map fun (k, v) => (k, Excerpt.mk room v.document)).map
        fun (k, sub) => (.ok k, sub) := by
  induction fields with
  | nil => rfl
  | cons f rest ih =>
    obtain ⟨k, v⟩ := f
    simp only [fieldDocuments, List.map_cons, stringOf_piecesOf, ih]
    rfl

theorem Shows.excerpt {room : Nat} {v w : Value} (h : Shows v w) (hlegible : w.Legible room) :
    v.isExact ∧ Shows (Excerpt.mk room v.document) w := by
  -- by induction on what is shown: each part of it is shown by some part of the other value
  induction hlegible generalizing v with
  | null =>
    cases h with
    | null hview =>
      obtain rfl : v = .null := view_injective hview
      exact ⟨rfl, .null rfl⟩
  | bool b =>
    cases h with
    | bool hview =>
      obtain rfl : v = .bool b := view_injective hview
      exact ⟨rfl, .bool rfl⟩
  | @int room n hinRange =>
    cases h with
    | number hview =>
      obtain rfl : v = .number (.int n) := view_injective hview
      refine ⟨rfl, .number (bind_eq_ok.2 ⟨.int n, ?_, rfl⟩)⟩
      rw [value_numeralOf hinRange]
      rfl
  | string text =>
    cases h with
    | string hview =>
      obtain rfl : v = .string text := view_injective hview
      refine ⟨rfl, .string (bind_eq_ok.2 ⟨text, ?_, rfl⟩)⟩
      rw [stringOf_piecesOf]
      rfl
  | @array room items hlegible ih =>
    cases h with
    | @array _ subs _ hview hsame =>
      obtain rfl : v = .array subs := view_injective hview
      have hread : List.Forall₂ (fun v w => v.isExact ∧ Shows (Excerpt.mk room v.document) w)
          subs items :=
        forall₂_imp_mem hsame fun _ w hmem => ih w hmem
      obtain ⟨hexact, hshown⟩ := (List.forall₂_and_left _ _).1 hread
      refine ⟨itemsExact_iff.2 hexact, .array rfl ?_⟩
      rw [itemDocuments_eq_map]
      exact List.forall₂_map_left_iff.2 (List.forall₂_map_left_iff.2 hshown)
  | @object room fields _ hlegible ih =>
    cases h with
    | @object _ _ subs hview hdistinct hsame =>
      obtain rfl : v = .object subs := view_injective hview
      have hread (name : String) :
          Option.Rel (fun v w => v.isExact ∧ Shows (Excerpt.mk room v.document) w)
            (subs.lookup name) (fields.lookup name) :=
        rel_imp_mem (hsame name) fun v w hfound hshown => ih _ (mem_of_lookup hfound) hshown
      constructor
      · refine fieldsExact_iff.2 fun f hmem => ?_
        obtain ⟨w, -, hexact, -⟩ := exists_lookup_of_rel hdistinct hread hmem
        exact hexact
      · have hview : Source.view (Excerpt.mk (room + 1) (Value.object subs).document) = _ :=
          congrArg (fun fs => Except.ok (View.object (.ok fs))) (map_fieldDocuments room subs)
        refine .object hview (hdistinct.map_snd fun v => Excerpt.mk room v.document) fun name => ?_
        rw [lookup_map_snd fun v : Value => Excerpt.mk room v.document]
        exact rel_map_left (rel_imp_mem (hread name) fun v w _ hshown => hshown.2)

theorem lift_eq_ok {α : Type} {e : Except LiteralError α} {a : α} :
    LiteralError.lift e = .ok a ↔ e = .ok a := by
  cases e <;> simp [LiteralError.lift, Except.mapError]

theorem itemValues_of_forall₂ {R : Value → Value → Prop} {room : Nat} {docs : List Document}
    {items : List Value}
    (h : List.Forall₂ (fun d w => ∃ v, d.toValue room = .ok v ∧ R v w) docs items) :
    ∃ vs, Document.itemValues room docs = .ok vs ∧ List.Forall₂ R vs items := by
  induction h with
  | nil => exact ⟨[], rfl, .nil⟩
  | cons hfirst hrest ih =>
    obtain ⟨v, hvalue, hrelated⟩ := hfirst
    obtain ⟨vs, hvalues, hall⟩ := ih
    exact ⟨v :: vs, bind_eq_ok.2 ⟨v, hvalue, bind_eq_ok.2 ⟨vs, hvalues, rfl⟩⟩, .cons hrelated hall⟩

theorem fieldValues_of_forall {R : String → Value → Prop} {room : Nat}
    {docs : List (List Piece × Document)} {subs : List (String × Excerpt)}
    (hsame : docs.map (fun (name, d) => (LiteralError.lift (stringOf name), Excerpt.mk room d)) =
      subs.map fun (k, sub) => (.ok k, sub))
    (h : ∀ k d, (k, Excerpt.mk room d) ∈ subs → ∃ v, d.toValue room = .ok v ∧ R k v) :
    ∃ fs, Document.fieldValues room docs = .ok fs ∧ fs.map (·.1) = subs.map (·.1) ∧
      ∀ f ∈ fs, R f.1 f.2 := by
  induction docs generalizing subs with
  | nil =>
    obtain rfl := List.map_eq_nil_iff.1 hsame.symm
    exact ⟨[], rfl, rfl, nofun⟩
  | cons doc rest ih =>
    obtain ⟨name, d⟩ := doc
    cases subs with
    | nil => cases hsame
    | cons sub subs =>
      obtain ⟨k, sub⟩ := sub
      obtain ⟨hfirst, htail⟩ := List.cons.inj hsame
      obtain ⟨hmeant, rfl⟩ := Prod.mk.inj hfirst
      have htext : stringOf name = .ok k := lift_eq_ok.1 hmeant
      obtain ⟨v, hvalue, hrelated⟩ := h k d List.mem_cons_self
      have hlater := fun k d hmem => h k d (List.mem_cons_of_mem _ hmem)
      obtain ⟨fs, hvalues, hnames, hall⟩ := ih htail hlater
      refine ⟨(k, v) :: fs, ?_, congrArg (k :: ·) hnames, List.forall_mem_cons.2 ⟨hrelated, hall⟩⟩
      exact bind_eq_ok.2 ⟨k, htext, bind_eq_ok.2 ⟨v, hvalue, bind_eq_ok.2 ⟨fs, hvalues, rfl⟩⟩⟩

theorem document_of_view {room : Nat} {d : Document} {view : View Excerpt}
    (h : Source.view (Excerpt.mk room d) = .ok view) :
    match view with
    | .null => d = .null
    | .bool b => d = .bool b
    | .number n => ∃ l, d = .number l ∧ l.value = .ok n
    | .string text => ∃ pieces, d = .string pieces ∧ stringOf pieces = .ok text
    | .array subs => ∃ docs, d = .array docs ∧
        (Excerpt.mk room d).enter (fun sub => docs.map sub) = subs
    | .object subs => ∃ docs, d = .object docs ∧
        (Excerpt.mk room d).enter (fun sub =>
          docs.map fun (name, d) => (LiteralError.lift (stringOf name), sub d)) = subs := by
  cases d with
  | null | bool _ =>
    cases h
    rfl
  | number l =>
    obtain ⟨n, hvalue, h⟩ := bind_eq_ok.1 h
    cases h
    exact ⟨l, rfl, lift_eq_ok.1 hvalue⟩
  | string pieces =>
    obtain ⟨text, hvalue, h⟩ := bind_eq_ok.1 h
    cases h
    exact ⟨pieces, rfl, lift_eq_ok.1 hvalue⟩
  | array docs | object docs =>
    cases h
    exact ⟨docs, rfl, rfl⟩

theorem Shows.value {room n : Nat} {d : Document} {w : Value}
    (h : Shows (Excerpt.mk room d) w) (hlegible : w.Legible n) :
    ∃ v, d.toValue room = .ok v ∧ Shows v w := by
  induction hlegible generalizing d room with
  | null =>
    cases h with
    | null hview =>
      obtain rfl : d = .null := document_of_view hview
      exact ⟨.null, rfl, .null rfl⟩
  | bool b =>
    cases h with
    | bool hview =>
      obtain rfl : d = .bool b := document_of_view hview
      exact ⟨.bool b, rfl, .bool rfl⟩
  | @int _ n hinRange =>
    cases h with
    | number hview =>
      obtain ⟨l, rfl, hvalue⟩ := document_of_view hview
      exact ⟨.number (.int n), bind_eq_ok.2 ⟨_, hvalue, rfl⟩, .number rfl⟩
  | string text =>
    cases h with
    | string hview =>
      obtain ⟨pieces, rfl, hvalue⟩ := document_of_view hview
      exact ⟨.string text, bind_eq_ok.2 ⟨_, hvalue, rfl⟩, .string rfl⟩
  | array _ ih =>
    cases h with
    | array hview hsame =>
      obtain ⟨docs, rfl, hinside⟩ := document_of_view hview
      cases room with
      | zero => cases hinside
      | succ room =>
        cases hinside
        have hread := forall₂_imp_mem (List.forall₂_map_left_iff.1 hsame) fun _ w hmem => ih w hmem
        obtain ⟨vs, hvalues, hshown⟩ := itemValues_of_forall₂ hread
        exact ⟨.array vs, bind_eq_ok.2 ⟨vs, hvalues, rfl⟩, .array rfl hshown⟩
  | @object _ fields _ _ ih =>
    cases h with
    | @object _ _ subs hview hdistinct hsame =>
      obtain ⟨docs, rfl, hinside⟩ := document_of_view hview
      cases room with
      | zero => cases hinside
      | succ room =>
        obtain ⟨fs, hvalues, hnames, hall⟩ := fieldValues_of_forall (Except.ok.inj hinside)
          (R := fun k v => ∃ w, fields.lookup k = some w ∧ Shows v w) fun k d hmem => by
            obtain ⟨w, hfound, hshown⟩ := exists_lookup_of_rel hdistinct hsame hmem
            obtain ⟨v, hvalue, hshown⟩ := ih _ (mem_of_lookup hfound) hshown
            exact ⟨v, hvalue, w, hfound, hshown⟩
        -- the value has its fields sorted, under each name what was there before
        have hdistinct' : Distinct fs := by rwa [Distinct, hnames]
        refine ⟨.object (sortFields fs), bind_eq_ok.2 ⟨fs, hvalues, rfl⟩,
          .object rfl (ordered_sortFields fs).distinct fun name => ?_⟩
        rw [hdistinct'.lookup_sortFields]
        exact rel_lookup_of_names hsame hnames hall name

/-- A source is lawful if the whole of it shows what it shows itself. -/
class LawfulSource (S : Type) [Source S] : Prop where
  whole {s : S} {v : Value} {n : Nat} (h : Shows s v) (hlegible : v.Legible n) :
    ∃ w, Source.whole s = .ok w ∧ Shows w v

instance : LawfulSource Value := ⟨fun h _ => ⟨_, rfl, h⟩⟩

instance : LawfulSource Excerpt where
  whole h hlegible := by
    obtain ⟨v, hvalue, hshown⟩ := h.value hlegible
    exact ⟨v, lift_eq_ok.2 hvalue, hshown⟩

end PlotMiner.Json
