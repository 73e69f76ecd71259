import PlotMiner.Json.Record
import PlotMiner.Proofs.Json.Shows
import PlotMiner.Proofs.Text.Hex

/-!
# Reading records back

A type whose values are read back from whatever shows what they are written as is a `Codec`. Single
values are (`Scalar`), and so are lists of such values and values that may be absent. A record is
read from the fields of an object (`Record.Reads`) no matter which fields of other names there are,
and the object decodes to it (`Record.read_object`), so that a record is a `Codec` if the types of
its fields are.
-/

namespace PlotMiner.Json

/-- A type whose values are written as literals that are read back. -/
class Scalar (α : Type) [Encode α] [Decode α] : Prop where
  decode_eq {S : Type} [Source S] {s : S} {a : α} (h : Shows s (encode a)) : decode s = .ok a
  plain (a : α) (room : Nat) : (encode a).Plain room
  ne_null (a : α) : encode a ≠ .null

/-- A type whose values are written with arrays and objects nested at most `depth` deep and are read
back. -/
class Codec (α : Type) [Encode α] [Decode α] where
  depth : Nat
  legible (a : α) {room : Nat} (h : depth ≤ room) : (encode a).Legible room
  decode_eq {S : Type} [Source S] [LawfulSource S] {s : S} {a : α} (h : Shows s (encode a)) :
    decode s = .ok a

instance {α : Type} [Encode α] [Decode α] [Scalar α] : Codec α where
  depth := 0
  legible a room _ := (Scalar.plain a room).legible
  decode_eq := Scalar.decode_eq

section

variable {S : Type} [Source S] {s : S}

theorem decodeStringAs_of_shows {text : String} (h : Shows s (.string text)) (want : String) :
    decodeStringAs want s = .ok text :=
  bind_eq_ok.2 ⟨_, h.view_string, rfl⟩

theorem decodeInt_of_shows {n low high : Int} (h : Shows s (.int n)) (hleast : low ≤ n)
    (hmost : n ≤ high) (want : String) : decodeInt low high want s = .ok n :=
  bind_eq_ok.2 ⟨_, h.view_number, if_pos ⟨hleast, hmost⟩⟩

theorem decodeInt_nat {n size : Nat} (h : Shows s (.nat n)) (hbelow : n < size) (want : String) :
    decodeInt 0 (.ofNat (size - 1)) want s = .ok (n : Int) :=
  decodeInt_of_shows h (Int.natCast_nonneg n) (Int.ofNat_le.2 (Nat.le_pred_of_lt hbelow)) want

end

theorem inRange_nat {n : Nat} (h : n < UInt64.size) : InRange n := by
  unfold InRange
  omega

theorem Value.Legible.nat {n : Nat} (h : n < UInt64.size) (room : Nat) :
    (Value.nat n).Legible room :=
  .int (inRange_nat h)

instance : Scalar Bool where
  decode_eq h := bind_eq_ok.2 ⟨_, h.view_bool, rfl⟩
  plain _ _ := ⟨rfl, trivial⟩
  ne_null _ := nofun

instance : Scalar String where
  decode_eq h := decodeStringAs_of_shows h _
  plain _ _ := ⟨rfl, trivial⟩
  ne_null _ := nofun

instance : Scalar UInt8 where
  decode_eq {_ _ _ a} h := by
    refine bind_eq_ok.2 ⟨a.toNat, decodeInt_nat h a.toNat_lt "u8", ?_⟩
    simp [pure, Except.pure]
  plain a _ := ⟨rfl, inRange_nat (Nat.lt_trans a.toNat_lt (by decide))⟩
  ne_null _ := nofun

instance : Scalar UInt32 where
  decode_eq {_ _ _ a} h := by
    refine bind_eq_ok.2 ⟨a.toNat, decodeInt_nat h a.toNat_lt "u32", ?_⟩
    simp [pure, Except.pure]
  plain a _ := ⟨rfl, inRange_nat (Nat.lt_trans a.toNat_lt (by decide))⟩
  ne_null _ := nofun

instance : Scalar UInt64 where
  decode_eq {_ _ _ a} h := by
    refine bind_eq_ok.2 ⟨a.toNat, decodeInt_nat h a.toNat_lt "u64", ?_⟩
    simp [pure, Except.pure]
  plain a _ := ⟨rfl, inRange_nat a.toNat_lt⟩
  ne_null _ := nofun

instance : Scalar Int64 where
  decode_eq {_ _ _ a} h := by
    refine bind_eq_ok.2 ⟨a.toInt, decodeInt_of_shows h ?_ ?_ "i64", ?_⟩
    · exact a.minValue_le_toInt
    · exact a.toInt_le
    · simp [pure, Except.pure]
  plain a _ := by
    have hleast := a.le_toInt
    have hmost := a.toInt_lt
    have hinRange : InRange a.toInt := by
      unfold InRange UInt64.size
      omega
    exact ⟨rfl, hinRange⟩
  ne_null _ := nofun

instance {n : Nat} : Scalar (SizedBytes n) where
  decode_eq {_ _ _ b} h := by
    refine bind_eq_ok.2 ⟨b.toHex, decodeStringAs_of_shows h _, ?_⟩
    rw [SizedBytes.ofHex_toHex]
    rfl
  plain _ _ := ⟨rfl, trivial⟩
  ne_null _ := nofun

instance : Scalar Blob where
  decode_eq {_ _ _ b} h := by
    refine bind_eq_ok.2 ⟨b.toHex, decodeStringAs_of_shows h _, ?_⟩
    rw [Blob.ofHex_toHex]
    rfl
  plain _ _ := ⟨rfl, trivial⟩
  ne_null _ := nofun

theorem mapM_eq_ok {σ α ε : Type} {f : σ → Except ε α} {l : List σ} {as : List α}
    (h : List.Forall₂ (fun s a => f s = .ok a) l as) : l.mapM f = .ok as := by
  induction h with
  | nil => rfl
  | cons hfirst _ ih =>
    rw [List.mapM_cons, hfirst, ih]
    rfl

instance {α : Type} [Encode α] [Decode α] [Codec α] : Codec (List α) where
  depth := Codec.depth α + 1
  legible l room h := by
    cases room with
    | zero => cases h
    | succ room =>
      refine .array fun v hmem => ?_
      obtain ⟨a, -, rfl⟩ := List.mem_map.1 hmem
      exact Codec.legible a (Nat.le_of_succ_le_succ h)
  decode_eq {_ _ _ _ l} h := by
    cases h with
    | array hview hsame =>
      have heach := List.forall₂_map_right_iff.1 hsame
      exact bind_eq_ok.2 ⟨_, hview, mapM_eq_ok (heach.imp fun _ _ => Codec.decode_eq)⟩

/-- An optional value is read from what the value alone is written as. -/
theorem decode_some {α S : Type} [Source S] [Encode α] [Decode α] [Scalar α] {s : S} {a : α}
    (h : Shows s (encode a)) : (decode s : Except DecodeError (Option α)) = .ok (some a) := by
  have hvalue := Scalar.decode_eq h
  have hthere := Scalar.ne_null a
  generalize encode a = v at h hthere
  cases h with
  | null => exact absurd rfl hthere
  | bool hview | number hview | string hview | array hview | object hview =>
    exact bind_eq_ok.2 ⟨_, hview, bind_eq_ok.2 ⟨a, hvalue, rfl⟩⟩

instance {α : Type} [Encode α] [Decode α] [Scalar α] : Codec (Option α) where
  depth := 0
  legible o room _ := by
    cases o with
    | none => exact .null
    | some a => exact (Scalar.plain a room).legible
  decode_eq {_ _ _ _ o} h := by
    cases o with
    | none =>
      cases h with
      | null hview => exact bind_eq_ok.2 ⟨_, hview, rfl⟩
    | some a => exact decode_some h

namespace Record

variable {S : Type} {α β : Type}

/-- The fields that are found give a record: it is built from them, whatever there is under names it
does not know, and each of them passes its check. -/
structure Reads (r : Record S α) (found : String → Option S) (a : α) : Prop where
  builds (other : String → Option S)
    (hsame : ∀ f ∈ r.fields, other f.1 = found f.1) : r.ofFields other = .ok a
  checks (f : String × (S → Except DecodeError Unit)) (hknown : f ∈ r.fields)
    (s : S) (hpresent : found f.1 = some s) : f.2 s = .ok ()

variable {r : Record S (α → β)} {found : String → Option S} {f : α → β} {name : String} {a : α}

theorem reads_pure (a : α) (found : String → Option S) :
    (pure a : Record S α).Reads found a :=
  ⟨fun _ _ => rfl, nofun⟩

theorem Reads.present (h : r.Reads found f) {s : S} (hthere : found name = some s)
    {item : S → Except DecodeError α} (hvalue : item s = .ok a) (default : Option α) :
    (r.andField name item default).Reads found (f a) := by
  constructor
  case builds =>
    intro other hsame
    have hbefore := h.builds other fun g hg => hsame g (List.mem_append_left _ hg)
    have hhere : other name = some s :=
      (hsame (name, _) (List.mem_append_right _ List.mem_cons_self)).trans hthere
    refine bind_eq_ok.2 ⟨f, hbefore, ?_⟩
    rw [hhere]
    exact bind_eq_ok.2 ⟨a, hvalue, rfl⟩
  case checks =>
    intro g hknown w hw
    rcases List.mem_append.1 hknown with hknown | hknown
    · exact h.checks g hknown w hw
    · obtain rfl := List.mem_singleton.1 hknown
      obtain rfl := Option.some.inj (hthere.symm.trans hw)
      simp only [hvalue]
      rfl

theorem Reads.absent (h : r.Reads found f) (hmissing : found name = none)
    (item : S → Except DecodeError α) :
    (r.andField name item (some a)).Reads found (f a) := by
  constructor
  case builds =>
    intro other hsame
    have hbefore := h.builds other fun g hg => hsame g (List.mem_append_left _ hg)
    have hhere : other name = none :=
      (hsame (name, _) (List.mem_append_right _ List.mem_cons_self)).trans hmissing
    refine bind_eq_ok.2 ⟨f, hbefore, ?_⟩
    rw [hhere]
    rfl
  case checks =>
    intro g hknown w hw
    rcases List.mem_append.1 hknown with hknown | hknown
    · exact h.checks g hknown w hw
    · obtain rfl := List.mem_singleton.1 hknown
      rw [hmissing] at hw
      cases hw

section

variable [Source S] [Encode α] [Decode α]

theorem exists_of_rel_some {o : Option S} {v : Value} (h : Option.Rel Shows o (some v)) :
    ∃ s, o = some s ∧ Shows s v := by
  cases h with
  | some hshown => exact ⟨_, rfl, hshown⟩

theorem Reads.field [LawfulSource S] [Codec α] (h : r.Reads found f)
    (hthere : Option.Rel Shows (found name) (some (encode a))) :
    (r.field name).Reads found (f a) := by
  obtain ⟨s, hthere, hshown⟩ := exists_of_rel_some hthere
  exact h.present hthere (Codec.decode_eq hshown) none

theorem Reads.fieldD [LawfulSource S] [Codec α] (h : r.Reads found f)
    (hthere : Option.Rel Shows (found name) (some (encode a))) (default : α) :
    (r.fieldD name default).Reads found (f a) := by
  obtain ⟨s, hthere, hshown⟩ := exists_of_rel_some hthere
  exact h.present hthere (Codec.decode_eq hshown) (some default)

theorem Reads.optional {r : Record S (Option α → β)} {f : Option α → β} [Scalar α]
    (h : r.Reads found f) {o : Option α}
    (hthere : Option.Rel Shows (found name) (o.map encode)) :
    (r.fieldD name none).Reads found (f o) := by
  cases o with
  | none =>
    refine h.absent ?_ decode
    generalize found name = field at hthere
    cases hthere with
    | none => rfl
  | some a =>
    obtain ⟨s, hthere, hshown⟩ := exists_of_rel_some hthere
    exact h.present hthere (decode_some hshown) (some none)

end

theorem collect_unknown {r : Record S α} (hunknown : r.fields.lookup name = none) (s : S)
    (rest : List (Except DecodeError String × S)) (found : List (String × S)) :
    r.collect ((.ok name, s) :: rest) found = r.collect rest found := by
  rw [collect]
  simp only [bind, Except.bind, hunknown]

theorem collect_known {r : Record S α} {check : S → Except DecodeError Unit}
    (hknown : r.fields.lookup name = some check) {s : S} (hpasses : check s = .ok ())
    (rest : List (Except DecodeError String × S)) {found : List (String × S)}
    (hfresh : ∀ f ∈ found, f.1 ≠ name) :
    r.collect ((.ok name, s) :: rest) found = r.collect rest ((name, s) :: found) := by
  have hnew : (found.any fun f => decide (f.1 = name)) = false := by
    rw [List.any_eq_false]
    intro f hf
    simp [hfresh f hf]
  rw [collect]
  simp only [bind, Except.bind, hknown, hnew, hpasses]
  rfl

def knows {T : Type} (r : Record S α) (f : String × T) : Bool := (r.fields.lookup f.1).isSome

theorem knows_of_mem {T : Type} {r : Record S α} {f : String × (S → Except DecodeError Unit)}
    (h : f ∈ r.fields) (t : T) : r.knows (f.1, t) = true :=
  List.lookup_isSome_iff.2 ⟨f, h, beq_self_eq_true _⟩

theorem lookup_filter_knows {r : Record S α} {f : String × (S → Except DecodeError Unit)}
    (h : f ∈ r.fields) (fields : List (String × S)) :
    (fields.filter r.knows).lookup f.1 = fields.lookup f.1 :=
  lookup_filter_of_pos (knows_of_mem h)

/-- The fields that a record knows are collected as they come, if none is there twice. -/
theorem collect_eq {r : Record S α} {fields acc : List (String × S)}
    (hdistinct : Distinct (fields.filter r.knows))
    (hfresh : ∀ f ∈ fields.filter r.knows, ∀ g ∈ acc, g.1 ≠ f.1)
    (hchecks : ∀ f ∈ r.fields, ∀ s, (f.1, s) ∈ fields → f.2 s = .ok ()) :
    r.collect (fields.map fun (k, s) => (.ok k, s)) acc =
      .ok (acc.reverse ++ fields.filter r.knows) := by
  induction fields generalizing acc with
  | nil => simp [collect]
  | cons f rest ih =>
    obtain ⟨k, s⟩ := f
    have hlater := fun g hg w hw => hchecks g hg w (List.mem_cons_of_mem _ hw)
    rw [List.map_cons]
    cases hknown : r.fields.lookup k with
    | none =>
      have hother : ¬ r.knows (k, s) = true := by simp [knows, hknown]
      rw [List.filter_cons_of_neg hother] at hdistinct hfresh ⊢
      rw [collect_unknown hknown]
      exact ih hdistinct hfresh hlater
    | some check =>
      have hown : r.knows (k, s) = true := by simp [knows, hknown]
      rw [List.filter_cons_of_pos hown] at hdistinct hfresh ⊢
      obtain ⟨hfirst, htail⟩ := List.nodup_cons.1 hdistinct
      have hpasses := hchecks _ (mem_of_lookup hknown) s List.mem_cons_self
      rw [collect_known hknown hpasses _ (hfresh _ List.mem_cons_self)]
      have hapart : ∀ f ∈ rest.filter r.knows, ∀ g ∈ (k, s) :: acc, g.1 ≠ f.1 := by
        intro f hf g hg
        rcases List.mem_cons.1 hg with rfl | hg
        · intro hsame
          exact hfirst (List.mem_map.2 ⟨f, hf, hsame.symm⟩)
        · exact hfresh f (List.mem_cons_of_mem _ hf) g hg
      simpa using ih htail hapart hlater

theorem read_object [Source S] (type : String) {r : Record S α} {s : S}
    {fields : List (String × S)}
    (hview : Source.view s = .ok (.object (.ok (fields.map fun (k, sub) => (.ok k, sub)))))
    (hdistinct : Distinct (fields.filter r.knows)) {a : α}
    (h : r.Reads (fun name => fields.lookup name) a) : read type r s = .ok a := by
  have hchecks : ∀ f ∈ r.fields, ∀ s, (f.1, s) ∈ fields → f.2 s = .ok () := by
    intro f hknown s hmem
    apply h.checks f hknown s
    rw [← lookup_filter_knows hknown]
    exact lookup_of_mem hdistinct (List.mem_filter.2 ⟨hmem, knows_of_mem hknown s⟩)
  have hfound : r.collect _ [] = _ := collect_eq hdistinct (by simp) hchecks
  refine bind_eq_ok.2 ⟨_, hview, ?_⟩
  refine bind_eq_ok.2 ⟨_, rfl, ?_⟩
  exact bind_eq_ok.2 ⟨_, hfound, h.builds _ fun _ hknown => lookup_filter_knows hknown fields⟩

theorem legible_object {n room : Nat} {fields : List (String × Value)} (h : n + 1 ≤ room)
    (hdistinct : Distinct fields) (hinside : ∀ inner, n ≤ inner → ∀ f ∈ fields, f.2.Legible inner) :
    (Value.object fields).Legible room := by
  obtain ⟨above, rfl⟩ := Nat.exists_eq_add_of_le' h
  exact .object hdistinct (hinside (above + n) (Nat.le_add_left n above))

/-- A record is read from what shows it, if it is from fields that show its own ones. -/
theorem read_of_shows [Source S] (type : String) {r : Record S α} {s : S}
    {own : List (String × Value)} (h : Shows s (.object own)) {a : α}
    (hreads : ∀ found : String → Option S,
      (∀ name, Option.Rel Shows (found name) (own.lookup name)) → r.Reads found a) :
    read type r s = .ok a := by
  cases h with
  | object hview hdistinct hsame =>
    exact read_object type hview (hdistinct.filter _) (hreads _ hsame)

end Record

end PlotMiner.Json
