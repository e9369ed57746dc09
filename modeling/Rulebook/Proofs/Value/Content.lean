import Mathlib.Data.List.Perm.Subperm
import Rulebook.Condition.Evaluation
import Rulebook.Proofs.Numeric.Comparison
import Rulebook.Proofs.Schema.Reread

/-!
# The content of values

The content of a value of JSON (`Value.content`) is what it says: a number is its exact value whatever its kind, and
an object is what its names stand for, in whatever order. Conditions take values to be equal that have the same
content, but also some that have not: they tell a truth value from a number only if both stand on their own. Inside of
lists and objects truth values count as zero and one (`Value.counted`). So values are equal exactly if they have the
same content when truth values are counted and not just one of them is a truth value, and they have the same content
exactly if moreover no truth value stands where the other has something else (`Value.equals_iff_counted`).
-/

namespace Rulebook

/-! ### Fields -/

namespace Fields

variable {fs gs : Fields} {name : String} {v : Value}

/-- A field that is found is one of the fields. -/
theorem mem_of_get (h : get? fs name = some v) : (name, v) ∈ fs := by
  induction fs with
  | nil => cases h
  | cons field fs ih =>
      rw [get?, List.lookup_cons] at h
      split at h
      next heq =>
        obtain rfl := beq_iff_eq.mp heq
        obtain rfl := Option.some.inj h
        exact List.mem_cons_self
      next => exact List.mem_cons_of_mem _ (ih h)

/-- A field is found exactly if there is one of its name. -/
theorem get_is_some_iff : (get? fs name).isSome = true ↔ name ∈ fs.map (·.1) := by
  induction fs with
  | nil => exact iff_of_false nofun nofun
  | cons field fs ih =>
      rw [get?, List.lookup_cons, List.map_cons, List.mem_cons]
      split
      next heq => exact iff_of_true rfl (.inl (beq_iff_eq.mp heq))
      next hne => exact ih.trans (or_iff_right (by simpa using hne)).symm

/-- Each of some fields with different names is found. -/
theorem get_of_mem (hdistinct : (fs.map (·.1)).Nodup) (h : (name, v) ∈ fs) : get? fs name = some v := by
  induction fs with
  | nil => cases h
  | cons field fs ih =>
      obtain ⟨hfield, hrest⟩ := List.nodup_cons.mp hdistinct
      rw [get?, List.lookup_cons]
      obtain rfl | h := List.mem_cons.mp h
      · rw [beq_self_eq_true]
      · have hne : name ≠ field.1 := by
          rintro rfl
          exact hfield (List.mem_map.mpr ⟨_, h, rfl⟩)
        rw [beq_false_of_ne hne]
        exact ih hrest h

/-- Fields with different names are as many, and each of them is found among the others, exactly if every name stands
for the same in both. -/
theorem same_iff {α : Type} {f : Value → α} (hfs : (fs.map (·.1)).Nodup) (hgs : (gs.map (·.1)).Nodup) :
    (fs.length = gs.length ∧ ∀ k v, (k, v) ∈ fs → ∃ w, get? gs k = some w ∧ f v = f w) ↔
      ∀ k, (get? fs k).map f = (get? gs k).map f := by
  constructor
  · rintro ⟨hlength, hfound⟩ k
    have hsubset : fs.map (·.1) ⊆ gs.map (·.1) := by
      intro name hname
      obtain ⟨⟨_, v⟩, hmem, rfl⟩ := List.mem_map.mp hname
      obtain ⟨w, hw, _⟩ := hfound _ v hmem
      exact List.mem_map.mpr ⟨_, mem_of_get hw, rfl⟩
    have hperm : (fs.map (·.1)).Perm (gs.map (·.1)) :=
      (List.subperm_of_subset hfs hsubset).perm_of_length_le (by simp [hlength])
    cases hk : get? fs k with
    | some v =>
        obtain ⟨w, hw, heq⟩ := hfound k v (mem_of_get hk)
        rw [hw, Option.map_some, Option.map_some, heq]
    | none =>
        have hnone : ¬(get? gs k).isSome = true := by
          rw [get_is_some_iff, ← hperm.mem_iff, ← get_is_some_iff, hk]
          exact Bool.false_ne_true
        rw [Option.not_isSome_iff_eq_none.mp hnone]
  · intro hsame
    have hnames : ∀ k, k ∈ fs.map (·.1) ↔ k ∈ gs.map (·.1) := by
      intro k
      have hsome := congrArg Option.isSome (hsame k)
      rw [Option.isSome_map, Option.isSome_map] at hsome
      rw [← get_is_some_iff, ← get_is_some_iff, hsome]
    have hlength := ((List.perm_ext_iff_of_nodup hfs hgs).mpr hnames).length_eq
    rw [List.length_map, List.length_map] at hlength
    refine ⟨hlength, fun k v hmem => ?_⟩
    have hv := hsame k
    rw [get_of_mem hfs hmem, Option.map_some] at hv
    obtain ⟨w, hw, heq⟩ := Option.map_eq_some_iff.mp hv.symm
    exact ⟨w, hw, heq.symm⟩

end Fields

/-! ### Content -/

/-- What a value of JSON says. -/
inductive Content where
  /-- Nothing. -/
  | null
  /-- A truth value. -/
  | truth (b : Bool)
  /-- A number. -/
  | number (q : ℚ)
  /-- A text. -/
  | text (s : String)
  /-- A list. -/
  | list (items : List Content)
  /-- What names stand for. -/
  | object (fields : String → Option Content)

namespace Value

mutual

/-- The content of a value, with truth values read in some way; times and numbers that are not finite say nothing. -/
def contentBy (truth : Bool → Content) : Value → Content
  | .null => .null
  | .bool b => truth b
  | .int n => .number n
  | .float x =>
    match Binary64.view x with
    | .finite e => .number e.value
    | _ => .null
  | .text s => .text s
  | .moment _ => .null
  | .list l => .list (contentsBy truth l)
  | .object fs => .object (fieldsBy truth fs)

/-- The contents of items. -/
def contentsBy (truth : Bool → Content) : List Value → List Content
  | [] => []
  | v :: l => contentBy truth v :: contentsBy truth l

/-- The contents that names stand for. -/
def fieldsBy (truth : Bool → Content) : List (String × Value) → String → Option Content
  | [], _ => none
  | (k, v) :: fs, name => if name == k then some (contentBy truth v) else fieldsBy truth fs name

end

/-- The content of a value. -/
def content : Value → Content := contentBy .truth

/-- The content of a value in which truth values count as zero and one. -/
def counted : Value → Content := contentBy fun b => .number (if b then 1 else 0)

variable {truth : Bool → Content}

/-- The content of a list has that of its items. -/
theorem content_by_list (l : List Value) : contentBy truth (.list l) = .list (l.map (contentBy truth)) := by
  rw [contentBy]
  congr 1
  induction l with
  | nil => rfl
  | cons v l ih => rw [contentsBy, ih, List.map_cons]

/-- The content of an object has that of what its names stand for. -/
theorem content_by_object (fs : Fields) :
    contentBy truth (.object fs) = .object fun k => (Fields.get? fs k).map (contentBy truth) := by
  rw [contentBy]
  congr 1
  funext k
  induction fs with
  | nil => rfl
  | cons field fs ih =>
      rw [fieldsBy, ih, Fields.get?, Fields.get?, List.lookup_cons]
      cases k == field.1 <;> rfl

/-! ### Values of JSON -/

mutual

/-- Whether the fields of each object in a value have different names. -/
def hasDistinctNames : Value → Bool
  | .list l => haveDistinctNames l
  | .object fs => decide (fs.map (·.1)).Nodup && fieldsHaveDistinctNames fs
  | _ => true

/-- Whether in all items the fields of each object have different names. -/
def haveDistinctNames : List Value → Bool
  | [] => true
  | v :: l => v.hasDistinctNames && haveDistinctNames l

/-- Whether in all fields the fields of each object have different names. -/
def fieldsHaveDistinctNames : List (String × Value) → Bool
  | [] => true
  | (_, v) :: fs => v.hasDistinctNames && fieldsHaveDistinctNames fs

end

/-- A value that can be written in JSON and read again. -/
structure IsSound (v : Value) : Prop where
  json : v.isJson = true
  distinct : v.hasDistinctNames = true

/-- The items of a list that is sound are sound. -/
theorem IsSound.item {l : List Value} (h : (Value.list l).IsSound) {v : Value} (hv : v ∈ l) : v.IsSound := by
  obtain ⟨hjson, hdistinct⟩ := h
  rw [isJson] at hjson
  rw [hasDistinctNames] at hdistinct
  induction l with
  | nil => cases hv
  | cons w l ih =>
      rw [areJson, Bool.and_eq_true] at hjson
      rw [haveDistinctNames, Bool.and_eq_true] at hdistinct
      obtain rfl | hv := List.mem_cons.mp hv
      · exact ⟨hjson.1, hdistinct.1⟩
      · exact ih hv hjson.2 hdistinct.2

/-- The fields of an object that is sound have different names. -/
theorem IsSound.names {fs : Fields} (h : (Value.object fs).IsSound) : (fs.map (·.1)).Nodup := by
  have hdistinct := h.distinct
  rw [hasDistinctNames, Bool.and_eq_true] at hdistinct
  exact of_decide_eq_true hdistinct.1

/-- The fields of an object that is sound are sound. -/
theorem IsSound.field {fs : Fields} (h : (Value.object fs).IsSound) {k : String} {v : Value} (hv : (k, v) ∈ fs) :
    v.IsSound := by
  obtain ⟨hjson, hdistinct⟩ := h
  rw [isJson] at hjson
  rw [hasDistinctNames, Bool.and_eq_true] at hdistinct
  replace hdistinct := hdistinct.2
  induction fs with
  | nil => cases hv
  | cons field fs ih =>
      obtain ⟨k', w⟩ := field
      rw [haveJson, Bool.and_eq_true] at hjson
      rw [fieldsHaveDistinctNames, Bool.and_eq_true] at hdistinct
      obtain heq | hv := List.mem_cons.mp hv
      · obtain ⟨_, rfl⟩ := Prod.mk.inj heq
        exact ⟨hjson.1, hdistinct.1⟩
      · exact ih hv hjson.2 hdistinct.2

/-- What holds of a value if it holds of its items and fields holds of all values. -/
@[elab_as_elim]
theorem by_parts {P : Value → Prop} (null : P .null) (bool : ∀ b, P (.bool b)) (int : ∀ n, P (.int n))
    (float : ∀ x, P (.float x)) (text : ∀ s, P (.text s)) (moment : ∀ m, P (.moment m))
    (list : ∀ l, (∀ v ∈ l, P v) → P (.list l)) (object : ∀ fs, (∀ k v, (k, v) ∈ fs → P v) → P (.object fs))
    (v : Value) : P v :=
  @Value.rec P (fun l => ∀ v ∈ l, P v) (fun fs => ∀ k v, (k, v) ∈ fs → P v) (fun field => P field.2)
    null bool int float text moment list object
    (List.forall_mem_nil _) (fun _ _ hv hl => List.forall_mem_cons.mpr ⟨hv, hl⟩)
    (fun _ _ h => absurd h List.not_mem_nil)
    (fun field _ hfield hfs k v h => by
      obtain rfl | h := List.mem_cons.mp h
      · exact hfield
      · exact hfs k v h)
    (fun _ _ hv => hv) v

end Value

/-! ### Equality -/

namespace Number

/-- The value of a number of either kind; what is not finite has none. -/
def value? : Number → Option ℚ
  | .int n => some n
  | .float x =>
    match Binary64.view x with
    | .finite e => some e.value
    | _ => none

/-- A binary64 number has a value if it is seen as finite. -/
theorem float_value_eq_some_iff {x : Float} {q : ℚ} :
    (float x).value? = some q ↔ ∃ e, Binary64.view x = .finite e ∧ e.value = q := by
  rw [value?]
  cases Binary64.view x <;> simp

/-- A binary64 number is an integer if that is its value. -/
theorem float_is_iff {x : Float} {e : Binary64.Exact} {n : Int} (h : Binary64.view x = .finite e) :
    same.floatIs x n = true ↔ e.value = n := by
  rw [same.floatIs, h, ← Binary64.Exact.compare_int_eq_iff]
  exact beq_iff_eq

/-- Numbers are the same if they have the same value. -/
theorem same_iff {m n : Number} {p q : ℚ} (hm : m.value? = some p) (hn : n.value? = some q) :
    m.same n = true ↔ p = q := by
  cases m with
  | int a =>
      obtain rfl := Option.some.inj hm
      cases n with
      | int b =>
          obtain rfl := Option.some.inj hn
          rw [same, beq_iff_eq, Int.cast_inj]
      | float y =>
          obtain ⟨e, he, rfl⟩ := float_value_eq_some_iff.mp hn
          rw [same, float_is_iff he, eq_comm]
  | float x =>
      obtain ⟨e, he, rfl⟩ := float_value_eq_some_iff.mp hm
      cases n with
      | int b =>
          obtain rfl := Option.some.inj hn
          rw [same, float_is_iff he]
      | float y =>
          obtain ⟨e', he', rfl⟩ := float_value_eq_some_iff.mp hn
          exact (Binary64.Reads.of_view he).beq_iff (.of_view he')

end Number

namespace Value

variable {v w : Value}

/-- A number that is sound, or a truth value, has a value, which is its content when truth values are counted. -/
theorem IsSound.counted_number {n : Number} (h : v.IsSound) (hn : v.number? = some n) :
    ∃ q, n.value? = some q ∧ v.counted = .number q := by
  cases v with
  | bool b =>
      obtain rfl := Option.some.inj hn
      refine ⟨_, rfl, ?_⟩
      cases b <;> rfl
  | int a =>
      obtain rfl := Option.some.inj hn
      exact ⟨_, rfl, rfl⟩
  | float x =>
      obtain rfl := Option.some.inj hn
      obtain ⟨e, he⟩ := Binary64.view_of_finite h.json
      exact ⟨e.value, Number.float_value_eq_some_iff.mpr ⟨e, he, rfl⟩, by rw [counted, contentBy, he]⟩
  | _ => cases hn

/-- What is neither a number nor a truth value has no number as its content. -/
theorem counted_ne_number {q : ℚ} (hv : v.number? = none) : v.counted ≠ .number q := by
  cases v with
  | bool b => cases hv
  | int n => cases hv
  | float x => cases hv
  | _ => simp [counted, contentBy]

/-- A number or truth value agrees with what is the same number. -/
theorem agrees_of_number {n : Number} (hn : v.number? = some n) :
    agrees v w = match w.number? with
      | some m => n.same m
      | none => false := by
  cases v with
  | bool b =>
      obtain rfl := Option.some.inj hn
      cases w <;> rfl
  | int a =>
      obtain rfl := Option.some.inj hn
      cases w <;> rfl
  | float x =>
      obtain rfl := Option.some.inj hn
      cases w <;> rfl
  | _ => cases hn

/-- A number or truth value agrees with what has the same content when truth values are counted. -/
theorem agrees_number_iff {n : Number} (hv : v.IsSound) (hw : w.IsSound) (hn : v.number? = some n) :
    agrees v w = true ↔ v.counted = w.counted := by
  obtain ⟨p, hp, hcounted⟩ := hv.counted_number hn
  rw [agrees_of_number hn, hcounted]
  cases hm : w.number? with
  | none => exact iff_of_false nofun (counted_ne_number hm).symm
  | some m =>
      obtain ⟨q, hq, hcounted'⟩ := hw.counted_number hm
      rw [hcounted', Content.number.injEq]
      exact Number.same_iff hp hq

/-- The contents of items are the same if each item agrees with that of the other list. -/
theorem agrees_all_iff {l r : List Value} (h : ∀ v ∈ l, ∀ w ∈ r, (agrees v w = true ↔ v.counted = w.counted)) :
    agreesAll l r = true ↔ l.map counted = r.map counted := by
  induction l generalizing r with
  | nil => cases r <;> simp [agreesAll]
  | cons v l ih =>
      cases r with
      | nil => simp [agreesAll]
      | cons w r =>
          have hrest := ih (r := r) fun v hv w hw => h v (List.mem_cons_of_mem _ hv) w (List.mem_cons_of_mem _ hw)
          rw [agreesAll, Bool.and_eq_true, h v List.mem_cons_self w List.mem_cons_self, hrest, List.map_cons,
            List.map_cons, List.cons.injEq]

/-- Fields are matched if each of them agrees with one that has its name. -/
theorem agrees_fields_iff {fs gs : Fields} : agreesFields fs gs = true ↔
    ∀ k v, (k, v) ∈ fs → ∃ w, Fields.get? gs k = some w ∧ agrees v w = true := by
  induction fs with
  | nil => exact iff_of_true rfl (fun _ _ h => absurd h List.not_mem_nil)
  | cons field fs ih =>
      obtain ⟨k, v⟩ := field
      rw [agreesFields, Bool.and_eq_true, ih]
      simp only [List.mem_cons, Prod.mk.injEq, or_imp, forall_and, and_imp]
      refine and_congr_left fun _ =>
        Iff.trans ?_ ⟨fun h _ _ hk hv => hk ▸ hv ▸ h, fun h => h k v rfl rfl⟩
      cases Fields.get? gs k <;> simp

/-- A number does not agree with what is neither a number nor a truth value, and has another content. -/
theorem agrees_float_iff {x : Float} (hw : (Value.float x).IsSound) (hv : v.number? = none) :
    agrees v (.float x) = true ↔ v.counted = (Value.float x).counted := by
  obtain ⟨q, _, hcounted⟩ := hw.counted_number rfl
  rw [hcounted]
  refine iff_of_false ?_ (counted_ne_number hv)
  cases v with
  | bool b => cases hv
  | int n => cases hv
  | float y => cases hv
  | _ => simp [agrees, agreesFlat, number?]

/-- Values agree exactly if they have the same content when truth values are counted. -/
theorem agrees_iff (hv : v.IsSound) (hw : w.IsSound) : agrees v w = true ↔ v.counted = w.counted := by
  induction v using by_parts generalizing w with
  | bool b => exact agrees_number_iff hv hw rfl
  | int n => exact agrees_number_iff hv hw rfl
  | float x => exact agrees_number_iff hv hw rfl
  | moment m => cases hv.json
  | null =>
      cases w with
      | float x => exact agrees_float_iff hw rfl
      | moment m => cases hw.json
      | _ => simp [agrees, agreesFlat, number?, counted, contentBy]
  | text s =>
      cases w with
      | float x => exact agrees_float_iff hw rfl
      | moment m => cases hw.json
      | _ => simp [agrees, agreesFlat, number?, counted, contentBy]
  | list l ih =>
      cases w with
      | list r =>
          rw [agrees, agrees_all_iff fun v hmem w hmem' => ih v hmem (hv.item hmem) (hw.item hmem'), counted,
            content_by_list, content_by_list, Content.list.injEq]
      | float x => exact agrees_float_iff hw rfl
      | moment m => cases hw.json
      | _ => simp [agrees, agreesFlat, number?, counted, contentBy]
  | object fs ih =>
      cases w with
      | object gs =>
          have hfields : agreesFields fs gs = true ↔
              ∀ k v, (k, v) ∈ fs → ∃ w, Fields.get? gs k = some w ∧ v.counted = w.counted := by
            rw [agrees_fields_iff]
            refine forall₃_congr fun k v hmem => exists_congr fun w => and_congr_right fun hget => ?_
            exact ih k v hmem (hv.field hmem) (hw.field (Fields.mem_of_get hget))
          rw [agrees, Bool.and_eq_true, beq_iff_eq, hfields, Fields.same_iff hv.names hw.names, counted,
            content_by_object, content_by_object, Content.object.injEq]
          exact funext_iff.symm
      | float x => exact agrees_float_iff hw rfl
      | moment m => cases hw.json
      | _ => simp [agrees, agreesFlat, number?, counted, contentBy]

/-- A value is a number or a truth value exactly if its content is a number when truth values are counted. -/
theorem IsSound.number_iff (hv : v.IsSound) : v.number?.isSome = true ↔ ∃ q, v.counted = .number q := by
  cases hn : v.number? with
  | none => exact iff_of_false Bool.false_ne_true fun ⟨q, hq⟩ => counted_ne_number hn hq
  | some n =>
      obtain ⟨q, _, hq⟩ := hv.counted_number hn
      exact iff_of_true rfl ⟨q, hq⟩

/-- A value is a number if it counts as one and is no truth value. -/
theorem is_number_eq (v : Value) : v.isNumber = (v.number?.isSome && !v.isBool) := by
  cases v <;> rfl

/-- Values are equal exactly if they have the same content when truth values are counted and not just one of them is a
truth value. -/
theorem equals_iff (hv : v.IsSound) (hw : w.IsSound) :
    v.equals w = true ↔ v.isBool = w.isBool ∧ v.counted = w.counted := by
  rw [equals, Bool.and_eq_true, Bool.and_eq_true, beq_iff_eq, beq_iff_eq, agrees_iff hv hw, and_assoc]
  refine and_congr_right fun hbool => and_iff_right_of_imp fun hcounted => ?_
  have hnumber : v.number?.isSome = w.number?.isSome := by
    rw [Bool.eq_iff_iff, hv.number_iff, hw.number_iff, hcounted]
  rw [is_number_eq, is_number_eq, hnumber, hbool]

/-- What stands in a value where something stands in another. -/
inductive Corresponds : Value → Value → Value → Value → Prop where
  | here (v w : Value) : Corresponds v w v w
  | item {l r : List Value} {n : Nat} {v w x y : Value} :
      l[n]? = some v → r[n]? = some w → Corresponds v w x y → Corresponds (.list l) (.list r) x y
  | field {fs gs : Fields} {k : String} {v w x y : Value} :
      Fields.get? fs k = some v → Fields.get? gs k = some w → Corresponds v w x y →
      Corresponds (.object fs) (.object gs) x y

/-- No truth value stands where there is something else in the other value. -/
def TruthMatches (v w : Value) : Prop := ∀ x y, Corresponds v w x y → x.isBool = y.isBool

/-- In lists, truth values match if they do in each pair of items. -/
theorem truth_matches_list {l r : List Value} : TruthMatches (.list l) (.list r) ↔
    ∀ (n : Nat) v w, l[n]? = some v → r[n]? = some w → TruthMatches v w := by
  constructor
  · intro h n v w hv hw x y hxy
    exact h x y (.item hv hw hxy)
  · intro h x y hxy
    cases hxy with
    | here => rfl
    | item hv hw hxy => exact h _ _ _ hv hw x y hxy

/-- In objects, truth values match if they do in each pair of fields. -/
theorem truth_matches_object {fs gs : Fields} : TruthMatches (.object fs) (.object gs) ↔
    ∀ k v w, Fields.get? fs k = some v → Fields.get? gs k = some w → TruthMatches v w := by
  constructor
  · intro h k v w hv hw x y hxy
    exact h x y (.field hv hw hxy)
  · intro h x y hxy
    cases hxy with
    | here => rfl
    | field hv hw hxy => exact h _ _ _ hv hw x y hxy

/-- What is the same in content is so when truth values are counted, and truth values match; of what may be absent. -/
theorem map_content_iff {a b : Option Value}
    (h : ∀ v, a = some v → ∀ w, v.content = w.content ↔ v.counted = w.counted ∧ TruthMatches v w) :
    a.map content = b.map content ↔
      a.map counted = b.map counted ∧ ∀ v w, a = some v → b = some w → TruthMatches v w := by
  cases a with
  | none => cases b <;> simp
  | some v =>
      cases b with
      | none => simp
      | some w => simp [h v rfl w]

/-- What has no items has them in common with nothing. -/
theorem truth_matches_flat (hlist : ∀ l, v ≠ .list l) (hobject : ∀ fs, v ≠ .object fs) :
    TruthMatches v w ↔ v.isBool = w.isBool := by
  refine ⟨fun h => h v w (.here v w), fun h x y hxy => ?_⟩
  cases hxy with
  | here => exact h
  | item => exact absurd rfl (hlist _)
  | field => exact absurd rfl (hobject _)

/-- What has no items or fields has the same content as another value exactly if it has when truth values are counted
and truth values match. -/
theorem content_flat_iff (hlist : ∀ l, v ≠ .list l) (hobject : ∀ fs, v ≠ .object fs) :
    v.content = w.content ↔ v.counted = w.counted ∧ TruthMatches v w := by
  rw [truth_matches_flat hlist hobject]
  cases v with
  | list l => exact absurd rfl (hlist l)
  | object fs => exact absurd rfl (hobject fs)
  | bool b =>
      cases w with
      | bool c => cases b <;> cases c <;> simp [content, counted, contentBy]
      | float y =>
          simp only [content, counted, contentBy, isBool]
          split <;> simp
      | _ => simp [content, counted, contentBy, isBool]
  | float x =>
      simp only [content, counted, contentBy]
      split <;> cases w <;> simp [contentBy, isBool]
  | _ => cases w <;> simp [content, counted, contentBy, isBool]

/-- Values have the same content exactly if they have when truth values are counted and truth values match. -/
theorem content_eq_iff : v.content = w.content ↔ v.counted = w.counted ∧ TruthMatches v w := by
  induction v using by_parts generalizing w with
  | list l ih =>
      cases w with
      | list r =>
          rw [truth_matches_list, content, counted, content_by_list, content_by_list, content_by_list, content_by_list,
            Content.list.injEq, Content.list.injEq, List.ext_getElem?_iff, List.ext_getElem?_iff, ← forall_and]
          refine forall_congr' fun n => ?_
          simp only [List.getElem?_map]
          exact map_content_iff fun v hv w => ih v (List.mem_of_getElem? hv)
      | float y =>
          simp only [content, counted, contentBy]
          split <;> simp
      | _ => simp [content, counted, contentBy]
  | object fs ih =>
      cases w with
      | object gs =>
          rw [truth_matches_object, content, counted, content_by_object, content_by_object, content_by_object,
            content_by_object, Content.object.injEq, Content.object.injEq, funext_iff, funext_iff, ← forall_and]
          exact forall_congr' fun k => map_content_iff fun v hv w => ih k v (Fields.mem_of_get hv)
      | float y =>
          simp only [content, counted, contentBy]
          split <;> simp
      | _ => simp [content, counted, contentBy]
  | _ => exact content_flat_iff nofun nofun

/-- A condition takes values of JSON to be equal exactly if not just one of them is a truth value and they have the same
content when all truth values in them count as zero and one. They have the same content exactly if it takes them to be
equal and no truth value stands where there is something else in the other value. -/
theorem equals_iff_counted (hv : v.IsSound) (hw : w.IsSound) :
    (Condition.holds (some v) .equals w = .ok true ↔ v.isBool = w.isBool ∧ v.counted = w.counted) ∧
      (v.content = w.content ↔ Condition.holds (some v) .equals w = .ok true ∧
        ∀ x y, Corresponds v w x y → x.isBool = y.isBool) := by
  have hholds : Condition.holds (some v) .equals w = .ok true ↔ v.isBool = w.isBool ∧ v.counted = w.counted := by
    rw [← equals_iff hv hw, Condition.holds, Except.ok.injEq]
  refine ⟨hholds, ?_⟩
  rw [content_eq_iff, hholds, and_assoc]
  exact ⟨fun ⟨hcounted, hmatches⟩ => ⟨hmatches v w (.here v w), hcounted, hmatches⟩, And.right⟩

/-- A condition takes a list with a truth value and one with a number to be equal, but their contents differ. -/
theorem equals_iff_counted_nested :
    (Value.list [.bool true]).IsSound ∧ (Value.list [.int 1]).IsSound ∧
      Condition.holds (some (.list [.bool true])) .equals (.list [.int 1]) = .ok true ∧
      (Value.list [.bool true]).content ≠ (Value.list [.int 1]).content := by
  have htruth : (Value.list [.bool true]).IsSound := ⟨rfl, rfl⟩
  have hnumber : (Value.list [.int 1]).IsSound := ⟨rfl, rfl⟩
  obtain ⟨hequals, hcontent⟩ := equals_iff_counted htruth hnumber
  refine ⟨htruth, hnumber, hequals.mpr ⟨rfl, rfl⟩, fun hsame => ?_⟩
  have hbool := (hcontent.mp hsame).2 (.bool true) (.int 1) (.item (n := 0) rfl rfl (.here _ _))
  cases hbool

end Value

end Rulebook
