import Mathlib.Data.List.Forall2
import Mathlib.Data.List.Nodup
import Rulebook.Proofs.Time.Text
import Rulebook.Rule.Basic

/-!
# Payloads that are read again

What a schema reads is given as a payload, either with its times as they are or in JSON, with times written as
texts, and the payload is read as the same again (`Schema.Rereads`). In JSON this holds of what is plain: the values
that may be anything hold no times, and those times that belong there can be told in texts (`Schema.RereadsPlain`).
It is said of the simple readers and passed on by those of lists and of records, whose fields are found again under
their names.
-/

namespace Rulebook

mutual

/-- Whether a value is one of JSON: it holds no time, and its numbers are finite. -/
def Value.isJson : Value → Bool
  | .moment _ => false
  | .float x => x.isFinite
  | .list l => areJson l
  | .object fs => haveJson fs
  | _ => true

/-- Whether all items are values of JSON. -/
def areJson : List Value → Bool
  | [] => true
  | v :: l => v.isJson && areJson l

/-- Whether all fields hold values of JSON. -/
def haveJson : List (String × Value) → Bool
  | [] => true
  | (_, v) :: fs => v.isJson && haveJson fs

end

mutual

/-- Whether a value holds no time. -/
def Value.isTimeless : Value → Bool
  | .moment _ => false
  | .list l => areTimeless l
  | .object fs => haveNoTime fs
  | _ => true

/-- Whether no item holds a time. -/
def areTimeless : List Value → Bool
  | [] => true
  | v :: l => v.isTimeless && areTimeless l

/-- Whether no field holds a time. -/
def haveNoTime : List (String × Value) → Bool
  | [] => true
  | (_, v) :: fs => v.isTimeless && haveNoTime fs

end

mutual

/-- A value of JSON holds no time. -/
theorem Value.timeless_of_json : (v : Value) → v.isJson = true → v.isTimeless = true
  | .null, _ | .bool _, _ | .int _, _ | .float _, _ | .text _, _ => rfl
  | .list l, h => timeless_items_of_json l h
  | .object fs, h => timeless_fields_of_json fs h

/-- Items that are values of JSON hold no time. -/
theorem timeless_items_of_json : (l : List Value) → areJson l = true → areTimeless l = true
  | [], _ => rfl
  | v :: l, h => by
      rw [areJson, Bool.and_eq_true] at h
      exact Bool.and_eq_true_iff.mpr ⟨Value.timeless_of_json v h.1, timeless_items_of_json l h.2⟩

/-- Fields that hold values of JSON hold no time. -/
theorem timeless_fields_of_json : (fs : Fields) → haveJson fs = true → haveNoTime fs = true
  | [], _ => rfl
  | (k, v) :: fs, h => by
      rw [haveJson, Bool.and_eq_true] at h
      exact Bool.and_eq_true_iff.mpr ⟨Value.timeless_of_json v h.1, timeless_fields_of_json fs h.2⟩

end

mutual

/-- A value that holds no time is written as it is. -/
theorem Value.written_of_timeless : (v : Value) → v.isTimeless = true → v.written = v
  | .null, _ | .bool _, _ | .int _, _ | .float _, _ | .text _, _ => rfl
  | .list l, h => congrArg Value.list (written_items_of_timeless l h)
  | .object fs, h => congrArg Value.object (written_fields_of_timeless fs h)

/-- Items that hold no time are written as they are. -/
theorem written_items_of_timeless : (l : List Value) → areTimeless l = true → writtenItems l = l
  | [], _ => rfl
  | v :: l, h => by
      rw [areTimeless, Bool.and_eq_true] at h
      rw [writtenItems, Value.written_of_timeless v h.1, written_items_of_timeless l h.2]

/-- Fields that hold no time are written as they are. -/
theorem written_fields_of_timeless : (fs : Fields) → haveNoTime fs = true → writtenFields fs = fs
  | [], _ => rfl
  | (k, v) :: fs, h => by
      rw [haveNoTime, Bool.and_eq_true] at h
      rw [writtenFields, Value.written_of_timeless v h.1, written_fields_of_timeless fs h.2]

end

/-- A value of JSON is written as it is. -/
theorem Value.written_of_json (v : Value) (h : v.isJson = true) : v.written = v :=
  written_of_timeless v (timeless_of_json v h)

mutual

/-- What is written holds no time. -/
theorem Value.timeless_written : (v : Value) → v.written.isTimeless = true
  | .null | .bool _ | .int _ | .float _ | .text _ | .moment _ => rfl
  | .list l => timeless_written_items l
  | .object fs => timeless_written_fields fs

/-- Items that are written hold no time. -/
theorem timeless_written_items : (l : List Value) → areTimeless (writtenItems l) = true
  | [] => rfl
  | v :: l => Bool.and_eq_true_iff.mpr ⟨Value.timeless_written v, timeless_written_items l⟩

/-- Fields that are written hold no time. -/
theorem timeless_written_fields : (fs : Fields) → haveNoTime (writtenFields fs) = true
  | [] => rfl
  | (_, v) :: fs => Bool.and_eq_true_iff.mpr ⟨Value.timeless_written v, timeless_written_fields fs⟩

end

/-- A field of an object that holds no time holds none. -/
theorem Fields.timeless_of_get {fs : Fields} {name : String} {v : Value} (hfs : haveNoTime fs = true)
    (h : get? fs name = some v) : v.isTimeless = true := by
  induction fs with
  | nil => cases h
  | cons field fs ih =>
      obtain ⟨k, w⟩ := field
      rw [haveNoTime, Bool.and_eq_true] at hfs
      rw [get?, List.lookup_cons] at h
      split at h
      next => exact Option.some.inj h ▸ hfs.1
      next => exact ih hfs.2 h

/-- An item of a list that holds no time holds none. -/
theorem timeless_of_mem {l : List Value} {v : Value} (hl : areTimeless l = true) (h : v ∈ l) :
    v.isTimeless = true := by
  induction l with
  | nil => cases h
  | cons w l ih =>
      rw [areTimeless, Bool.and_eq_true] at hl
      obtain rfl | h := List.mem_cons.mp h
      · exact hl.1
      · exact ih hl.2 h

/-- Items are written one by one. -/
theorem written_items_eq (l : List Value) : writtenItems l = l.map Value.written := by
  induction l with
  | nil => rfl
  | cons v l ih => rw [writtenItems, ih, List.map_cons]

/-- The forms in which payloads are given. -/
inductive PayloadForm where
  /-- Times are values. -/
  | plain
  /-- Times are written as texts. -/
  | json

namespace PayloadForm

/-- A payload in a form. -/
def give : PayloadForm → Value → Value
  | plain, v => v
  | json, v => v.written

/-- A text is given as it is. -/
theorem give_text (form : PayloadForm) (t : String) : form.give (.text t) = .text t := by
  cases form <;> rfl

/-- The items of a list are given one by one. -/
theorem give_list (form : PayloadForm) (l : List Value) : form.give (.list l) = .list (l.map form.give) := by
  cases form with
  | plain => exact congrArg Value.list (List.map_id l).symm
  | json => exact congrArg Value.list (written_items_eq l)

end PayloadForm

namespace Checked

variable {α β : Type} {a : α} {b : β} {c : Checked α}

/-- A reading with its result transformed is valid if it is. -/
theorem map_eq_valid {f : α → β} : f <$> c = valid b ↔ ∃ a, c = valid a ∧ f a = b := by
  show apply (valid f) c = valid b ↔ _
  cases c <;> simp [apply]

/-- Readings that are put together are valid if both are. -/
theorem seq_eq_valid {d : Checked (α → β)} :
    d <*> c = valid b ↔ ∃ f, d = valid f ∧ ∃ a, c = valid a ∧ f a = b := by
  show apply d c = valid b ↔ _
  cases d <;> cases c <;> simp [apply]

/-- A valid reading with its result transformed. -/
theorem map_valid {f : α → β} (h : c = valid a) : f <$> c = valid (f a) := map_eq_valid.mpr ⟨a, h, rfl⟩

/-- Valid readings that are put together. -/
theorem seq_valid {d : Checked (α → β)} {f : α → β} (hd : d = valid f) (hc : c = valid a) :
    d <*> c = valid (f a) :=
  seq_eq_valid.mpr ⟨f, hd, a, hc, rfl⟩

/-- A transformed reading is valid if it is, in the other notation. -/
theorem transformed_eq_valid {f : α → β} : c.map f = valid b ↔ ∃ a, c = valid a ∧ f a = b := by
  cases c <;> simp [map]

/-- A reading of a part is valid if it is. -/
theorem within_eq_valid {k : Key} : c.within k = valid a ↔ c = valid a := by
  cases c <;> simp [within]

/-- A further reading is valid if both are. -/
theorem then_eq_valid {f : α → Checked β} : c.andThen f = valid b ↔ ∃ a, c = valid a ∧ f a = valid b := by
  cases c <;> simp [andThen]

/-- All items are read if each of them is, in its place. -/
theorem all_eq_valid {read : Nat → α → Checked β} {l : List α} {n : Nat} {bs : List β}
    (h : all read n l = valid bs) : List.Forall₂ (fun a b => ∃ i, read i a = valid b) l bs := by
  induction l generalizing n bs with
  | nil =>
      cases h
      exact .nil
  | cons a l ih =>
      obtain ⟨f, hf, rest, hrest, rfl⟩ := seq_eq_valid.mp h
      obtain ⟨b, hb, rfl⟩ := transformed_eq_valid.mp hf
      exact .cons ⟨n, within_eq_valid.mp hb⟩ (ih hrest)

/-- Items that can be read in every place are read. -/
theorem all_of_forall {read : Nat → α → Checked β} {l : List α} {bs : List β}
    (h : List.Forall₂ (fun a b => ∀ i, read i a = valid b) l bs) (n : Nat) : all read n l = valid bs := by
  induction h generalizing n with
  | nil => rfl
  | cons hb _ ih =>
      exact seq_eq_valid.mpr ⟨_, transformed_eq_valid.mpr ⟨_, within_eq_valid.mpr (hb n), rfl⟩, _, ih (n + 1), rfl⟩

end Checked

namespace Schema

open Checked

variable {α β : Type} {s : Schema α} {f : α → Value} {p : α → Prop} {fs : Fields} {name : String} {a absent : α}
  {v : Value}

/-- What is read is read again from its payload, in either form. -/
def Rereads (s : Schema α) (f : α → Value) : Prop :=
  ∀ v a, s v = .valid a → ∀ form : PayloadForm, s (form.give (f a)) = .valid a

/-- What is read is read again from its payload as it is, and in JSON if it is plain, as what is read of a value
without times is. -/
structure RereadsPlain (s : Schema α) (f : α → Value) (p : α → Prop) : Prop where
  again : ∀ v a, s v = .valid a → ∀ form : PayloadForm, (form = .json → p a) → s (form.give (f a)) = .valid a
  plain : ∀ v a, v.isTimeless = true → s v = .valid a → p a

/-- What is always read again is read again if it is plain. -/
theorem Rereads.toPlain (hs : s.Rereads f) (p : α → Prop) (hp : ∀ a, p a) : s.RereadsPlain f p :=
  ⟨fun v a h form _ => hs v a h form, fun _ a _ _ => hp a⟩

/-- What is read as a part of something else is read again as such. -/
theorem RereadsPlain.map {g : α → β} {k : β → Value} {q : β → Prop}
    (hs : s.RereadsPlain (fun a => k (g a)) fun a => q (g a)) : RereadsPlain (fun v => (s v).map g) k q := by
  refine ⟨fun v b h form hform => ?_, fun v b hv h => ?_⟩
  · obtain ⟨a, ha, rfl⟩ := transformed_eq_valid.mp h
    exact transformed_eq_valid.mpr ⟨a, hs.again v a ha form hform, rfl⟩
  · obtain ⟨a, ha, rfl⟩ := transformed_eq_valid.mp h
    exact hs.plain v a hv ha

/-! ### Fields of records -/

/-- A required field is valid if it is there and can be read. -/
theorem required_eq_valid : required fs name s = .valid a ↔ ∃ v, Fields.get? fs name = some v ∧ s v = .valid a := by
  rw [required]
  cases Fields.get? fs name <;> simp [within_eq_valid]

/-- A field that may be absent is valid if it is absent or can be read. -/
theorem defaulted_eq_valid : defaulted fs name s absent = .valid a ↔
    Fields.get? fs name = none ∧ absent = a ∨ ∃ v, Fields.get? fs name = some v ∧ s v = .valid a := by
  rw [defaulted]
  cases Fields.get? fs name <;> simp [within_eq_valid]

/-- A field that is found and can be read is valid. -/
theorem required_valid (h : Fields.get? fs name = some v) (hv : s v = .valid a) : required fs name s = .valid a :=
  required_eq_valid.mpr ⟨v, h, hv⟩

/-- A field that is found and can be read is valid, though it may be absent. -/
theorem defaulted_valid (h : Fields.get? fs name = some v) (hv : s v = .valid a) :
    defaulted fs name s absent = .valid a :=
  defaulted_eq_valid.mpr (.inr ⟨v, h, hv⟩)

/-- A required field is read again. -/
theorem Rereads.required (hs : s.Rereads f) (h : required fs name s = .valid a) (form : PayloadForm) :
    s (form.give (f a)) = .valid a := by
  obtain ⟨v, _, ha⟩ := required_eq_valid.mp h
  exact hs v a ha form

/-- A field that may be absent is read again, if what stands for an absent one is. -/
theorem Rereads.defaulted (hs : s.Rereads f) (hplain : s (f absent) = .valid absent)
    (hjson : s (f absent).written = .valid absent) (h : defaulted fs name s absent = .valid a) (form : PayloadForm) :
    s (form.give (f a)) = .valid a := by
  obtain ⟨_, rfl⟩ | ⟨v, _, ha⟩ := defaulted_eq_valid.mp h
  · cases form with
    | plain => exact hplain
    | json => exact hjson
  · exact hs v a ha form

/-- A required field is read again if it is plain. -/
theorem RereadsPlain.required (hs : s.RereadsPlain f p) (h : required fs name s = .valid a) (form : PayloadForm)
    (hform : form = .json → p a) : s (form.give (f a)) = .valid a := by
  obtain ⟨v, _, ha⟩ := required_eq_valid.mp h
  exact hs.again v a ha form hform

/-- A field that may be absent is read again if it is plain, and if what stands for an absent one is read again. -/
theorem RereadsPlain.defaulted (hs : s.RereadsPlain f p) (hplain : s (f absent) = .valid absent)
    (hjson : s (f absent).written = .valid absent) (h : defaulted fs name s absent = .valid a) (form : PayloadForm)
    (hform : form = .json → p a) : s (form.give (f a)) = .valid a := by
  obtain ⟨_, rfl⟩ | ⟨v, _, ha⟩ := defaulted_eq_valid.mp h
  · cases form with
    | plain => exact hplain
    | json => exact hjson
  · exact hs.again v a ha form hform

/-- A required field of an object without times is plain. -/
theorem RereadsPlain.plain_required (hs : s.RereadsPlain f p) (hfs : haveNoTime fs = true)
    (h : Schema.required fs name s = .valid a) : p a := by
  obtain ⟨v, hv, ha⟩ := required_eq_valid.mp h
  exact hs.plain v a (Fields.timeless_of_get hfs hv) ha

/-- A field of an object without times is plain, if what stands for an absent one is. -/
theorem RereadsPlain.plain_defaulted (hs : s.RereadsPlain f p) (hfs : haveNoTime fs = true) (habsent : p absent)
    (h : Schema.defaulted fs name s absent = .valid a) : p a := by
  obtain ⟨_, rfl⟩ | ⟨v, hv, ha⟩ := defaulted_eq_valid.mp h
  · exact habsent
  · exact hs.plain v a (Fields.timeless_of_get hfs hv) ha

/-- A record is read from an object. -/
theorem model_eq_valid {read : Fields → Checked α} :
    model name read v = .valid a ↔ ∃ fs, v = .object fs ∧ read fs = .valid a := by
  cases v <;> simp [model, Checked.fail]

/-- A variant is read by the reader that its name selects. -/
theorem tagged_eq_valid {variants : List (String × (Fields → Checked α))} : tagged variants v = .valid a ↔
    ∃ fs tag name read, v = .object fs ∧ Fields.get? fs "type" = some tag ∧
      variants.find? (fun (n, _) => tag.text? == some n) = some (name, read) ∧ read fs = .valid a := by
  cases v with
  | object fs =>
      rw [tagged]
      cases htag : Fields.get? fs "type" with
      | none => simp [Checked.fail, htag]
      | some tag =>
          cases hfound : variants.find? fun (n, _) => tag.text? == some n with
          | none => simp [Checked.fail, htag, hfound]
          | some found =>
              obtain ⟨name, read⟩ := found
              simp [within_eq_valid, htag, hfound]
  | _ => simp [tagged, Checked.fail]

/-! ### Simple readers -/

/-- Anything is read again if it holds no time. -/
theorem rereads_any : RereadsPlain any id (·.isTimeless = true) := by
  refine ⟨fun v a h form hform => ?_, fun v a hv h => Checked.valid.inj h ▸ hv⟩
  cases form with
  | plain => rfl
  | json => exact congrArg Checked.valid (Value.written_of_timeless a (hform rfl))

/-- A text is read again. -/
theorem rereads_text : Rereads text .text := fun _ _ _ form => by rw [PayloadForm.give_text, text]

/-- What is checked after it is read is read again, if the check does not change it. -/
theorem Rereads.checked (hs : s.Rereads f) {check : α → Checked α} (hcheck : ∀ a b, check a = .valid b → a = b) :
    Rereads (fun v => (s v).andThen check) f := by
  intro v b h form
  obtain ⟨a, ha, hb⟩ := then_eq_valid.mp h
  obtain rfl := hcheck a b hb
  exact then_eq_valid.mpr ⟨a, hs v a ha form, hb⟩

/-- Only texts are read as texts. -/
theorem text_eq_valid {t : String} : text v = .valid t ↔ v = .text t := by
  cases v <;> simp [text, Checked.fail]

/-- A text whose length lies between bounds is read as it is. -/
theorem text_of_length_valid {least : Nat} {most : Option Nat} {t : String} (h : textOfLength least most v = .valid t) :
    v = .text t := by
  obtain ⟨s, hs, hcheck⟩ := then_eq_valid.mp h
  rw [text_eq_valid.mp hs]
  split at hcheck
  · split at hcheck
    · cases hcheck
    · split at hcheck
      · cases hcheck
      · exact congrArg Value.text (Checked.valid.inj hcheck)
  · split at hcheck
    · cases hcheck
    · exact congrArg Value.text (Checked.valid.inj hcheck)

/-- A text whose length lies between bounds is read again. -/
theorem rereads_text_of_length (least : Nat) (most : Option Nat) : Rereads (textOfLength least most) .text := by
  intro v t h form
  obtain rfl := text_of_length_valid h
  rw [PayloadForm.give_text]
  exact h

/-- An integer is read again. -/
theorem rereads_int : Rereads int .int := fun _ _ _ form => by cases form <;> rfl

/-- An integer between bounds is read again. -/
theorem rereads_int_between (least : Int) (most : Option Int) : Rereads (intBetween least most) .int := by
  refine rereads_int.checked fun m n h => ?_
  split at h
  · split at h
    · cases h
    · split at h
      · cases h
      · exact Checked.valid.inj h
  · split at h
    · cases h
    · exact Checked.valid.inj h

/-- A number is read again. -/
theorem rereads_float : Rereads float .float := fun _ _ _ form => by cases form <;> rfl

/-- A truth value is read again. -/
theorem rereads_bool : Rereads bool .bool := fun _ _ _ form => by cases form <;> rfl

/-- The name of a member is read as the member, if the members have different names. -/
theorem named_of_name [Enumeration α] (hnames : ((Enumeration.members : List α).map Enumeration.name).Nodup)
    (h : a ∈ (Enumeration.members : List α)) : named (Value.ofName a) = .valid a := by
  rw [Value.ofName, named]
  split
  next b hb =>
    have hname : Enumeration.name b = Enumeration.name a := by simpa using List.find?_some hb
    rw [List.inj_on_of_nodup_map hnames (List.mem_of_find?_eq_some hb) h hname]
  next hnone =>
    rw [List.find?_eq_none] at hnone
    exact absurd (beq_self_eq_true _) (hnone a h)

/-- What is read of a name is a member. -/
theorem mem_of_named [Enumeration α] (h : named v = .valid a) : a ∈ (Enumeration.members : List α) := by
  cases v with
  | text t =>
      rw [named] at h
      split at h
      next b hb => exact Checked.valid.inj h ▸ List.mem_of_find?_eq_some hb
      next => cases h
  | _ => cases h

/-- A name is read again, if the members of the type have different names. -/
theorem rereads_named [Enumeration α] (hnames : ((Enumeration.members : List α).map Enumeration.name).Nodup) :
    Rereads (named : Schema α) .ofName := by
  intro v a h form
  rw [Value.ofName, PayloadForm.give_text]
  exact named_of_name hnames (mem_of_named h)

/-- A time is read again if it can be told. -/
theorem rereads_moment : RereadsPlain moment .moment Moment.IsTold := by
  refine ⟨fun v m h form hform => ?_, fun v m hv h => ?_⟩
  · cases form with
    | plain => rfl
    | json =>
        show MomentText.read m.text = .valid m
        exact Moment.read_text (hform rfl)
  · cases v with
    | text t => exact Moment.told_of_read h
    | int n => exact MomentText.told_of_number h
    | float x => exact MomentText.told_of_float h
    | moment k => cases hv
    | _ => cases h

/-- What is not null is read as what is there. -/
theorem optional_of_not_null (h : v.isNull = false) : optional s v = (s v).map some := by
  cases v <;> first | rfl | cases h

/-- What may be null is null, or there is something that is read. -/
theorem optional_eq_valid {m : Option α} (h : optional s v = .valid m) :
    v = .null ∧ m = none ∨ ∃ a, s v = .valid a ∧ m = some a := by
  cases hnone : v.isNull with
  | true =>
      cases v <;> cases hnone
      exact .inl ⟨rfl, (Checked.valid.inj h).symm⟩
  | false =>
      rw [optional_of_not_null hnone] at h
      obtain ⟨a, ha, rfl⟩ := transformed_eq_valid.mp h
      exact .inr ⟨a, ha, rfl⟩

/-- What is there is read where it may be null, if null stands for nothing else. -/
theorem optional_some_valid {form : PayloadForm} (hnull : (form.give (f a)).isNull = false)
    (h : s (form.give (f a)) = .valid a) :
    optional s (form.give (Value.ofOption f (some a))) = .valid (some a) := by
  rw [Value.ofOption, optional_of_not_null hnull, h]
  rfl

/-- What may be null is read again, if null stands for nothing else. -/
theorem Rereads.optional (hs : s.Rereads f) (hnull : ∀ a (form : PayloadForm), (form.give (f a)).isNull = false) :
    Rereads (optional s) (.ofOption f) := by
  intro v m h form
  obtain ⟨_, rfl⟩ | ⟨a, ha, rfl⟩ := optional_eq_valid h
  · cases form <;> rfl
  · exact optional_some_valid (hnull a form) (hs v a ha form)

/-- A time that may be null is read again if it can be told. -/
theorem rereads_optional_moment : RereadsPlain (optional moment) (.ofOption .moment) (∀ m ∈ ·, m.IsTold) := by
  refine ⟨fun v m h form hform => ?_, fun v m hv h => ?_⟩
  · obtain ⟨_, rfl⟩ | ⟨k, hk, rfl⟩ := optional_eq_valid h
    · cases form <;> rfl
    · have hnull : (form.give (Value.moment k)).isNull = false := by cases form <;> rfl
      exact optional_some_valid hnull (rereads_moment.again v k hk form fun hjson => hform hjson k rfl)
  · obtain ⟨_, rfl⟩ | ⟨k, hk, rfl⟩ := optional_eq_valid h
    · exact nofun
    · exact fun n hn => Option.some.inj hn ▸ rereads_moment.plain v k hv hk

/-! ### Lists and objects -/

/-- A list is read again by another reader, if each item is in every place. -/
theorem list_rereads {item other : Nat → Schema α} {l : List α} (form : PayloadForm) (h : listOf item v = .valid l)
    (hitem : ∀ a ∈ l, ∀ i w j, item i w = .valid a → other j (form.give (f a)) = .valid a) :
    listOf other (form.give (Value.list (l.map f))) = .valid l := by
  cases v with
  | list items =>
      have hall := all_eq_valid h
      rw [PayloadForm.give_list, List.map_map]
      refine all_of_forall ?_ 0
      clear h
      induction hall with
      | nil => exact .nil
      | @cons w a items l ha _ ih =>
          obtain ⟨i, ha⟩ := ha
          obtain ⟨hfirst, hrest⟩ := List.forall_mem_cons.mp hitem
          exact .cons (fun j => hfirst i w j ha) (ih hrest)
  | _ => cases h

/-- What holds of all items that are read of values without times holds of those of a list without times. -/
theorem forall_of_list {item : Nat → Schema α} {l : List α} (hv : v.isTimeless = true) (h : listOf item v = .valid l)
    (hitem : ∀ i w a, w.isTimeless = true → item i w = .valid a → p a) : ∀ a ∈ l, p a := by
  cases v with
  | list items =>
      have hall := all_eq_valid h
      have htimeless : ∀ w ∈ items, w.isTimeless = true := fun w => timeless_of_mem hv
      clear h hv
      induction hall with
      | nil => exact nofun
      | @cons w a items l ha _ ih =>
          obtain ⟨i, ha⟩ := ha
          obtain ⟨hw, hrest⟩ := List.forall_mem_cons.mp htimeless
          exact List.forall_mem_cons.mpr ⟨hitem i w a hw ha, ih hrest⟩
  | _ => cases h

/-- A list in a field is read again by another reader, if each item is in every place. -/
theorem defaulted_list_rereads {item other : Nat → Schema α} {l : List α} (form : PayloadForm)
    (h : defaulted fs name (listOf item) [] = .valid l)
    (hitem : ∀ a ∈ l, ∀ i w j, item i w = .valid a → other j (form.give (f a)) = .valid a) :
    listOf other (form.give (Value.list (l.map f))) = .valid l := by
  obtain ⟨_, rfl⟩ | ⟨v, _, hl⟩ := defaulted_eq_valid.mp h
  · cases form <;> rfl
  · exact list_rereads form hl hitem

/-- What holds of all items that are read of values without times holds of those of a list in a field of an object
without times. -/
theorem forall_of_defaulted_list {item : Nat → Schema α} {l : List α} (hfs : haveNoTime fs = true)
    (h : defaulted fs name (listOf item) [] = .valid l)
    (hitem : ∀ i w a, w.isTimeless = true → item i w = .valid a → p a) : ∀ a ∈ l, p a := by
  obtain ⟨_, rfl⟩ | ⟨v, hv, hl⟩ := defaulted_eq_valid.mp h
  · exact nofun
  · exact forall_of_list (Fields.timeless_of_get hfs hv) hl hitem

/-- Texts are read of a list of them. -/
theorem texts_valid (l : List String) (form : PayloadForm) : texts (form.give (Value.texts l)) = .valid l := by
  rw [Value.texts, PayloadForm.give_list, List.map_map]
  refine all_of_forall ?_ 0
  induction l with
  | nil => exact .nil
  | cons t l ih => exact .cons (fun _ => rereads_text (.text t) t rfl form) ih

/-- Texts are read again. -/
theorem rereads_texts : Rereads texts .texts := fun _ l _ form => texts_valid l form

/-- At least so many texts are read again. -/
theorem rereads_texts_of_number (least : Nat) : Rereads (listOfAtLeast least fun _ => text) .texts := by
  refine rereads_texts.checked fun l k h => ?_
  split at h
  · cases h
  · exact Checked.valid.inj h

/-- An object is read again if it holds no time. -/
theorem rereads_object : RereadsPlain object .object (haveNoTime · = true) := by
  refine ⟨fun v fs h form hform => ?_, fun v fs hv h => ?_⟩
  · cases form with
    | plain => rfl
    | json => exact congrArg object (Value.written_of_timeless (.object fs) (hform rfl))
  · cases v with
    | object gs => exact Checked.valid.inj h ▸ hv
    | _ => cases h

/-- An object whose fields are texts is written as it is. -/
theorem written_text_fields (l : List (String × String)) : (Value.ofTextFields l).written = .ofTextFields l := by
  refine Value.written_of_timeless _ ?_
  show haveNoTime (l.map fun f => (f.1, Value.text f.2)) = true
  induction l with
  | nil => rfl
  | cons field l ih => exact ih

/-- An object whose fields are texts is read again. -/
theorem rereads_text_fields : Rereads textFields .ofTextFields := by
  intro v l _ form
  have hfields : ∀ l, allFields text (l.map fun f : String × String => (f.1, Value.text f.2)) = .valid l := by
    intro l
    induction l with
    | nil => rfl
    | cons field l ih =>
        obtain ⟨k, t⟩ := field
        show Checked.apply (.valid fun l => (k, t) :: l) (allFields text (l.map _)) = _
        rw [ih]
        rfl
  cases form with
  | plain => exact hfields l
  | json =>
      rw [PayloadForm.give, written_text_fields]
      exact hfields l

end Schema

end Rulebook
