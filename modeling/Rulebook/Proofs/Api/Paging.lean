import Mathlib.Data.List.TakeWhile
import Rulebook.Proofs.Api.Isolation
import Rulebook.Proofs.EventType
import Rulebook.Proofs.Store.Newest

/-!
# Executions read page by page

A page holds the items of a list from its offset on, as far as its limit goes, and says that there is a next one if
and only if items remain (`page_eq`). Whoever begins at the start and goes on by the limit as long as there is a next
page comes to an end, having read every item once, in order (`turns_of_pages`). So do those who ask for the pages of
the executions of a tenant, and they read the newest first (`Arrival.executions_read`).
-/

namespace Rulebook

/-! ### Pages -/

section Pages

variable {α β : Type}

/-- A page of a list. -/
theorem page_eq (items : List α) {limit : Nat} (hlimit : 0 < limit) (offset : Nat) :
    page items limit offset = ((items.drop offset).take limit,
      ⟨items.length, limit, offset, ((items.drop offset).take limit).length,
        !(items.drop (offset + limit)).isEmpty⟩) := by
  have hposition : ∀ n : Nat, position items.length n = min n items.length := fun n => by
    rw [position, if_neg (by omega), Int.toNat_natCast]
  have hitems : (items.drop (min offset items.length)).take (min (offset + limit) items.length - min offset items.length) =
      (items.drop offset).take limit := by
    obtain hin | hout := Nat.le_total offset items.length
    · rw [Nat.min_eq_left hin, List.take_eq_take_iff, List.length_drop]
      omega
    · rw [Nat.min_eq_right hout, List.drop_eq_nil_of_le hout, List.drop_eq_nil_of_le (Nat.le_refl _), List.take_nil,
        List.take_nil]
  have hmore : decide (((offset : Int) + (((items.drop offset).take limit).length : Nat)) < (items.length : Int)) =
      !(items.drop (offset + limit)).isEmpty := by
    rw [Bool.eq_iff_iff, decide_eq_true_iff, Bool.not_eq_true', List.isEmpty_eq_false_iff, Ne, List.drop_eq_nil_iff,
      List.length_take, List.length_drop]
    omega
  rw [page, ← Int.natCast_add, hposition, hposition]
  rw [hitems, hmore]

/-- What is read of pages from an offset on, with their offsets: on each page one looks whether there is a next one,
and goes on by the limit if so. -/
inductive Turns (ask : Nat → Option β) (more : β → Bool) (limit : Nat) : Nat → List (Nat × β) → Prop
  /-- There is no next page. -/
  | last {offset : Nat} {b : β} (h : ask offset = some b) (hlast : more b = false) :
      Turns ask more limit offset [(offset, b)]
  /-- There is a next page. -/
  | next {offset : Nat} {b : β} {pages : List (Nat × β)} (h : ask offset = some b) (hmore : more b = true)
      (hrest : Turns ask more limit (offset + limit) pages) : Turns ask more limit offset ((offset, b) :: pages)

variable {ask : Nat → Option β} {more : β → Bool} {limit : Nat}

/-- There is one way to read pages. -/
theorem Turns.unique {offset : Nat} {pages others : List (Nat × β)} (h : Turns ask more limit offset pages)
    (hothers : Turns ask more limit offset others) : others = pages := by
  induction h generalizing others with
  | last h hlast =>
      cases hothers with
      | last h' => rw [Option.some.inj (h.symm.trans h')]
      | next h' hmore =>
          rw [← Option.some.inj (h.symm.trans h'), hlast] at hmore
          cases hmore
  | next h hmore _ ih =>
      cases hothers with
      | last h' hlast =>
          rw [← Option.some.inj (h.symm.trans h'), hmore] at hlast
          cases hlast
      | next h' _ hrest => rw [Option.some.inj (h.symm.trans h'), ih hrest]

/-- Pages are read to an end, from where there are items. -/
theorem turns_from {items : List α} {content : β → List α} {offset : Nat} (hlimit : 0 < limit)
    (h : ∀ n, n = 0 ∨ n < items.length → ∃ b, ask n = some b ∧ content b = (items.drop n).take limit ∧
      more b = !(items.drop (n + limit)).isEmpty) (hoffset : offset = 0 ∨ offset < items.length) :
    ∃ pages, Turns ask more limit offset pages ∧ pages.flatMap (fun p => content p.2) = items.drop offset ∧
      ∀ p ∈ pages, ask p.1 = some p.2 ∧ (p.1 = 0 ∨ p.1 < items.length) := by
  obtain ⟨b, hask, hcontent, hmore⟩ := h offset hoffset
  cases hrest : (items.drop (offset + limit)).isEmpty with
  | true =>
      rw [hrest] at hmore
      refine ⟨[(offset, b)], .last hask hmore, ?_, List.forall_mem_singleton.mpr ⟨hask, hoffset⟩⟩
      have hall : (items.drop offset).length ≤ limit := by
        rw [List.isEmpty_iff, List.drop_eq_nil_iff] at hrest
        rw [List.length_drop]
        omega
      rw [List.flatMap_singleton, hcontent, List.take_of_length_le hall]
  | false =>
      rw [hrest] at hmore
      have hin : offset + limit < items.length := by
        rw [List.isEmpty_eq_false_iff, Ne, List.drop_eq_nil_iff] at hrest
        omega
      -- the items that remain become fewer
      obtain ⟨pages, hpages, hitems, hall⟩ := turns_from hlimit h (.inr hin)
      refine ⟨(offset, b) :: pages, .next hask hmore hpages, ?_, List.forall_mem_cons.mpr ⟨⟨hask, hoffset⟩, hall⟩⟩
      rw [List.flatMap_cons, hitems, hcontent, ← List.drop_drop, List.take_append_drop]
termination_by items.length - offset

/-- If each page is one of a list, then pages are read to an end, and on them every item once and in order. -/
theorem turns_of_pages {items : List α} {content : β → List α} (hlimit : 0 < limit)
    (h : ∀ n, n = 0 ∨ n < items.length → ∃ b, ask n = some b ∧ content b = (items.drop n).take limit ∧
      more b = !(items.drop (n + limit)).isEmpty) :
    ∃ pages, Turns ask more limit 0 pages ∧ pages.flatMap (fun p => content p.2) = items ∧
      ∀ p ∈ pages, ask p.1 = some p.2 ∧ (p.1 = 0 ∨ p.1 < items.length) :=
  turns_from hlimit h (.inl rfl)

end Pages

open Checked Schema

/-! ### Numbers in queries -/

/-- A text writes a number in digits. -/
structure Writes (s : String) (n : Nat) : Prop where
  /-- It is not empty. -/
  some : s.toList ≠ []
  /-- It consists of digits. -/
  digits : ∀ c ∈ s.toList, Decimal.isDigit c = true
  /-- They are not too many to be read. -/
  few : s.toList.length ≤ maxNumeral
  /-- They stand for the number. -/
  value : Decimal.ofDigits s.toList = n

/-- A digit is neither blank nor any other sign in a numeral. -/
theorem plain_of_digit {c : Char} (h : Decimal.isDigit c = true) :
    isNumeralSpace c = false ∧ c ≠ '-' ∧ c ≠ '+' ∧ c ≠ '.' ∧ c ≠ '_' := by
  have hbounds : 48 ≤ c.toNat ∧ c.toNat ≤ 57 := by
    rw [Decimal.isDigit, Decimal.digit?] at h
    split at h
    · next hc => exact hc
    · cases h
  refine ⟨?_, ?_, ?_, ?_, ?_⟩
  · have hblank : Text.isBlank c = false := by
      simp only [Text.isBlank, CharRanges.contains, Text.blanks, List.any_cons, List.any_nil, Bool.or_eq_false_iff,
        Bool.and_eq_false_iff, decide_eq_false_iff_not, and_true]
      omega
    rw [isNumeralSpace, hblank]
    rfl
  all_goals
    rintro rfl
    revert hbounds
    decide

/-- The integer that digits write. -/
theorem integer_text_of_digits {ds : List Char} (hsome : ds ≠ []) (h : ∀ c ∈ ds, Decimal.isDigit c = true) :
    integerText? ds = some (Decimal.ofDigits ds : Int) := by
  have hno : ∀ {c : Char}, Decimal.isDigit c = false → c ∉ ds := fun hc hmem =>
    Bool.false_ne_true (hc.symm.trans (h _ hmem))
  have hzeros : dropZeroFraction ds = ds := by
    have hall : ds.dropWhile (· ≠ '.') = [] :=
      List.dropWhile_eq_nil_iff.mpr fun c hc => decide_eq_true (plain_of_digit (h c hc)).2.2.2.1
    rw [dropZeroFraction, hall]
  have hscores : dropUnderscores? ds = some ds := by
    have hhead : ds.head? ≠ some '_' := fun heq => hno (by decide) (List.mem_of_mem_head? heq)
    have hlast : ds.getLast? ≠ some '_' := fun heq => hno (by decide) (List.mem_of_getLast? heq)
    have hpairs : (ds.zip ds.tail).any (fun x => x.1 == '_' && x.2 == '_') = false := by
      rw [List.any_eq_false]
      intro x hx heq
      rw [Bool.and_eq_true, beq_iff_eq] at heq
      exact (plain_of_digit (h x.1 (List.of_mem_zip hx).1)).2.2.2.2 heq.1
    have hfilter : ds.filter (· ≠ '_') = ds :=
      List.filter_eq_self.mpr fun c hc => decide_eq_true (plain_of_digit (h c hc)).2.2.2.2
    rw [dropUnderscores?, beq_false_of_ne hhead, beq_false_of_ne hlast, hfilter]
    exact if_neg (by rw [hpairs]; exact Bool.false_ne_true)
  have hempty : (ds.isEmpty || !ds.all Decimal.isDigit) = false := by
    rw [List.isEmpty_eq_false_iff.mpr hsome, List.all_eq_true.mpr h]
    rfl
  rw [integerText?, hzeros, hscores]
  · exact if_neg (by rw [hempty]; exact Bool.false_ne_true)
  -- no sign stands before them
  · rintro r rfl
    exact hno (c := '-') rfl List.mem_cons_self
  · rintro r rfl
    exact hno (c := '+') rfl List.mem_cons_self

/-- A number is read of the text that writes it. -/
theorem int_of_writes {s : String} {n : Nat} (h : Writes s n) : int (.text s) = .valid n := by
  have htrim : Text.trimBy isNumeralSpace s.toList = s.toList :=
    Text.trim_of_ends (fun c hc => (plain_of_digit (h.digits c (List.mem_of_mem_head? hc))).1)
      fun c hc => (plain_of_digit (h.digits c (List.mem_of_getLast? hc))).1
  rw [int, htrim, if_neg (Nat.not_lt.mpr h.few), integer_text_of_digits h.some h.digits, h.value]

/-- A query holds a number, or leaves out the usual one. -/
def HoldsNumber (fs : Fields) (name : String) (usual n : Nat) : Prop :=
  match Fields.get? fs name with
  | none => n = usual
  | some v => ∃ s, v = .text s ∧ Writes s n

/-- The number in a query is read. -/
theorem number_of_holds {fs : Fields} {name : String} {usual n : Nat} {least : Int} {most : Option Int}
    (h : HoldsNumber fs name usual n) (hleast : least ≤ n) (hmost : ∀ m ∈ most, (n : Int) ≤ m) :
    defaulted fs name (intBetween least most) (usual : Int) = .valid (n : Int) := by
  rw [HoldsNumber] at h
  refine defaulted_eq_valid.mpr ?_
  cases hget : Fields.get? fs name with
  | none =>
      rw [hget] at h
      exact .inl ⟨rfl, congrArg Nat.cast h.symm⟩
  | some v =>
      rw [hget] at h
      obtain ⟨s, rfl, hs⟩ := h
      refine .inr ⟨_, rfl, then_eq_valid.mpr ⟨n, int_of_writes hs, ?_⟩⟩
      cases most with
      | none => exact if_neg (Int.not_lt.mpr hleast)
      | some m =>
          dsimp only
          rw [if_neg (Int.not_lt.mpr (hmost m rfl)), if_neg (Int.not_lt.mpr hleast)]

namespace ApiRequest

/-- A request asks for a page of executions. -/
structure AsksPage (r : ApiRequest) (q : ExecutionQuery) (limit offset : Nat) : Prop where
  /-- It gets. -/
  method : r.method = "GET"
  /-- It gets executions. -/
  path : r.path = "/automations/executions"
  /-- It is for the tenant. -/
  tenant : r.tenant = .ok q.tenantId
  /-- Whenever they were triggered. -/
  period : q.period = none
  /-- The rule may be left out. -/
  rule : Fields.get? r.queryFields "rule_id" = q.ruleId.map .text
  /-- The status may be left out. -/
  status : Fields.get? r.queryFields "status" = q.status.map .ofName
  /-- It is a status that executions come to. -/
  listed : ∀ a ∈ q.status, a ∈ (Enumeration.members : List ExecutionStatus)
  /-- There are usually 50 on a page. -/
  limit : HoldsNumber r.queryFields "limit" 50 limit
  /-- The first page begins at the start. -/
  offset : HoldsNumber r.queryFields "offset" 0 offset

/-- A field of a query that is there can be read, or there is none. -/
theorem optional_field_valid {α : Type} {fs : Fields} {name : String} {s : Schema α} {f : α → Value} {m : Option α}
    (h : Fields.get? fs name = m.map f) (hs : ∀ a ∈ m, s (f a) = .valid a) : optionalField fs name s = .valid m := by
  refine defaulted_eq_valid.mpr ?_
  cases m with
  | none => exact .inl ⟨h, rfl⟩
  | some a => exact .inr ⟨f a, h, transformed_eq_valid.mpr ⟨a, hs a rfl, rfl⟩⟩

/-- A request for a page is read as an order for it. -/
theorem AsksPage.decide_eq {r : ApiRequest} {q : ExecutionQuery} {limit offset : Nat} {site : Site}
    (h : r.AsksPage q limit offset) (hengine : site.hasEngine = true) (hleast : 1 ≤ limit) (hmost : limit ≤ 500) :
    r.decide site = .order (.executions q.tenantId q.ruleId q.status limit offset) := by
  have hroute : Route.find r.method r.path = .found .executions := by
    rw [h.method, h.path]
    rfl
  have hentry : r.entry site = .ok q.tenantId := by
    rw [entry, h.tenant]
    show (meetEngine site >>= fun _ => .ok q.tenantId) = .ok q.tenantId
    rw [meetEngine, if_pos hengine]
    rfl
  have hread : executionsQuery q.tenantId r.queryFields =
      .valid (.executions q.tenantId q.ruleId q.status limit offset) := by
    have hrule := optional_field_valid (s := text) h.rule fun _ _ => rfl
    have hstatus := optional_field_valid (s := named) h.status fun a ha => named_of_name (by decide) (h.listed a ha)
    have hlimit : defaulted r.queryFields "limit" (intBetween 1 (some 500)) 50 = .valid (limit : Int) := by
      refine number_of_holds h.limit (by omega) fun m hm => ?_
      obtain rfl := Option.some.inj hm
      omega
    have hoffset : defaulted r.queryFields "offset" (intBetween 0 none) 0 = .valid (offset : Int) :=
      number_of_holds h.offset (by omega) nofun
    exact seq_valid (seq_valid (seq_valid (map_valid hrule) hstatus) hlimit) hoffset
  have hquery : r.demandQuery (executionsQuery q.tenantId) =
      .ok (.executions q.tenantId q.ruleId q.status limit offset) := by
    rw [demandQuery, hread]
    rfl
  have horder : r.order site .executions = some (.ok (.executions q.tenantId q.ruleId q.status limit offset)) := by
    rw [order]
    exact congrArg some (Outcome.bind_eq_ok.mpr ⟨_, hentry, hquery⟩)
  rw [decide, hroute]
  dsimp only
  rw [horder]

end ApiRequest

/-! ### Answers -/

namespace Order

variable {σ : Type} {v : Environment σ} {now : Moment} {e : Engine σ} {rungs : List (Rung σ)}

/-- The page that a listing shows. -/
theorem listing_eq {rows : List Execution} {limit offset : Nat} (hlimit : 0 < limit) (ruleId : Option String)
    (status : Option ExecutionStatus) :
    listing rows ruleId status limit offset = ⟨(rows.drop offset).take limit,
      ⟨rows.length, limit, offset, ((rows.drop offset).take limit).length, !(rows.drop (offset + limit)).isEmpty⟩,
      ruleId, status⟩ := by
  rw [listing, page_eq rows hlimit]

/-- An order for a page is answered at once, with the page of those that are listed. -/
theorem answer_executions (u : String) (ruleId : Option String) (status : Option ExecutionStatus) (limit offset : Int) :
    answer v now (.executions u ruleId status limit offset) e rungs =
      some ((e.listExecutions ⟨u, none, ruleId, status⟩).map fun rows =>
        (listing rows ruleId status limit offset).toValue) := by
  rw [answer, start, Engine.perform_bind, Engine.perform_get]
  dsimp only
  rw [Engine.perform_bind, Engine.perform_lift]
  cases e.listExecutions ⟨u, none, ruleId, status⟩ <;> rfl

end Order

/-- A request that arrives at an engine, and what happens there until it is answered. -/
structure Arrival (σ : Type) where
  /-- What the request meets. -/
  site : Site
  /-- When it arrives. -/
  now : Moment
  /-- The request. -/
  request : ApiRequest
  /-- The engine. -/
  engine : Engine σ
  /-- The alarms that ring meanwhile. -/
  rungs : List (Rung σ)

namespace ApiResponse

/-- What a page says about itself. -/
def pagination (a : ApiResponse) : Fields := Fields.fields a.body.fields "pagination"

/-- The executions on a page. -/
def items (a : ApiResponse) : List Value := Fields.items a.body.fields "items"

/-- Whether a page says that there is a next one. -/
def hasNext (a : ApiResponse) : Bool :=
  match Fields.value a.pagination "has_next" with
  | .bool b => b
  | _ => false

/-- A response shows the page of a list that begins at an offset. -/
structure Shows (a : ApiResponse) (rows : List Execution) (limit offset : Nat) : Prop where
  /-- The request is answered. -/
  status : a.status = 200
  /-- The executions from the offset on are shown, as far as the limit goes. -/
  items : a.items = ((rows.map fun x => x.toValue.written.sent).drop offset).take limit
  /-- It is told how many there are. -/
  total : Fields.value a.pagination "total" = .int rows.length
  /-- There is a next page if and only if executions remain. -/
  hasNext : a.hasNext = !(rows.drop (offset + limit)).isEmpty

end ApiResponse

/-- The items of a list are sent one by one. -/
theorem sent_items_eq (l : List Value) : sentItems l = l.map Value.sent := by
  induction l with
  | nil => rfl
  | cons v l ih => rw [sentItems, ih, List.map_cons]

/-- The body of a response with a listing. -/
theorem ExecutionListing.sent_eq (l : ExecutionListing) : l.toValue.written.sent =
    .object [("items", .list (l.items.map fun x => x.toValue.written.sent)),
      ("pagination", .object [("total", .int l.page.total), ("limit", .int l.page.limit),
        ("offset", .int l.page.offset), ("count", .int l.page.count), ("has_next", .bool l.page.hasNext)]),
      ("rule_id", (Value.ofOption .text l.ruleId).written.sent),
      ("status", (Value.ofOption .ofName l.status).written.sent)] := by
  have hitems : sentItems (writtenItems (l.items.map Execution.toValue)) =
      l.items.map fun x => x.toValue.written.sent := by
    rw [written_items_eq, sent_items_eq, List.map_map, List.map_map]
    rfl
  rw [← hitems]
  rfl

/-- A response with a listing shows its page. -/
theorem ApiResponse.shows_listing (headers : List (String × String)) (rows : List Execution) (limit offset : Nat)
    (count : Int) (ruleId : Option String) (status : Option ExecutionStatus) :
    Shows ⟨200, headers, (ExecutionListing.toValue ⟨(rows.drop offset).take limit,
      ⟨rows.length, limit, offset, count, !(rows.drop (offset + limit)).isEmpty⟩, ruleId, status⟩).written.sent⟩
      rows limit offset := by
  rw [ExecutionListing.sent_eq]
  refine ⟨rfl, ?_, rfl, rfl⟩
  rw [← List.map_drop, ← List.map_take]
  rfl

/-- A fault without a code is responded to as such. -/
theorem ApiRequest.status_of_fault (r : ApiRequest) (requestId : String) {f : Failure} (h : f.code? = none) :
    (r.conclude requestId (.error (.failed f))).1.status = 500 := by
  have hfault : (Refusal.failed f).fault? = some f := by
    rw [Refusal.fault?, h]
    rfl
  rw [conclude]
  dsimp only
  rw [hfault, Refusal.response, h]

namespace Arrival

variable {σ : Type} {v : Environment σ} {a : Arrival σ} {s : ExecutionStore} {q : ExecutionQuery} {limit offset : Nat}

/-- The response to a request, if it is answered by then. -/
def response (v : Environment σ) (a : Arrival σ) : Option ApiResponse :=
  a.request.answer v a.site a.now a.engine a.rungs

/-- A request for a page arrives where there is an engine with these executions. -/
structure Asks (a : Arrival σ) (s : ExecutionStore) (q : ExecutionQuery) (limit offset : Nat) : Prop where
  /-- The request asks for a page. -/
  request : a.request.AsksPage q limit offset
  /-- There is an engine. -/
  engine : a.site.hasEngine = true
  /-- It has the executions. -/
  store : a.engine.executions = s

/-- A request for a page is answered with what is listed. -/
theorem Asks.response_eq (h : a.Asks s q limit offset) (hleast : 1 ≤ limit) (hmost : limit ≤ 500) :
    a.response v = some (match s.list q with
      | .ok rows => ⟨200, [(requestIdHeader, a.request.identifier a.site.requestId)],
          (Order.listing rows.reverse q.ruleId q.status limit offset).toValue.written.sent⟩
      | .error f => (a.request.conclude (a.request.identifier a.site.requestId) (.error (.failed f))).1) := by
  have hq : (⟨q.tenantId, none, q.ruleId, q.status⟩ : ExecutionQuery) = q := by rw [← h.request.period]
  rw [response, ApiRequest.answer, ApiRequest.respond, h.request.decide_eq h.engine hleast hmost]
  dsimp only
  rw [Order.answer_executions, hq, Engine.listExecutions, h.store]
  cases s.list q <;> rfl

/-- If those that are wanted can be listed, a request for a page is answered with it. -/
theorem Asks.shows (h : a.Asks s q limit offset) (hleast : 1 ≤ limit) (hmost : limit ≤ 500) {rows : List Execution}
    (hrows : s.list q = .ok rows) : ∃ b, a.response v = some b ∧ b.Shows rows.reverse limit offset := by
  refine ⟨_, h.response_eq hleast hmost, ?_⟩
  rw [hrows]
  dsimp only
  rw [Order.listing_eq hleast]
  exact ApiResponse.shows_listing ..

/-- If they cannot be listed, it is answered with a fault. -/
theorem Asks.fails (h : a.Asks s q limit offset) (hleast : 1 ≤ limit) (hmost : limit ≤ 500) (hno : ¬s.CanList q) :
    ∃ b, a.response v = some b ∧ b.status = 500 := by
  obtain ⟨f, hf, hcode⟩ := ExecutionStore.list_fails h.request.period hno
  refine ⟨_, h.response_eq hleast hmost, ?_⟩
  rw [hf]
  exact ApiRequest.status_of_fault _ _ hcode

/-- Whoever reads the executions of a tenant page by page gets all that are wanted once, the newest first, and is
told on every page how many there are. If they cannot be listed, every page is answered with a fault. -/
theorem executions_read {ask : Nat → Arrival σ} (hleast : 1 ≤ limit) (hmost : limit ≤ 500)
    (h : ∀ offset, offset = 0 ∨ offset < s.total q → (ask offset).Asks s q limit offset) :
    (s.CanList q → ∃ rows, s.NewestFirst q rows ∧ rows.length = s.total q ∧
      ∃ pages, Turns (fun offset => (ask offset).response v) ApiResponse.hasNext limit 0 pages ∧
        (∀ p ∈ pages, p.2.Shows rows limit p.1) ∧
        pages.flatMap (fun p => p.2.items) = rows.map fun x => x.toValue.written.sent) ∧
      (¬s.CanList q → ∀ offset, offset = 0 ∨ offset < s.total q →
        ∃ b, (ask offset).response v = some b ∧ b.status = 500) := by
  have hperiod := (h 0 (.inl rfl)).request.period
  refine ⟨fun hcan => ?_, fun hno offset hoffset => (h offset hoffset).fails hleast hmost hno⟩
  obtain ⟨rows, hrows, hnewest⟩ := ExecutionStore.list_newest hperiod hcan
  have hlength := hnewest.length_eq
  have hshows : ∀ n, n = 0 ∨ n < rows.reverse.length →
      ∃ b, (ask n).response v = some b ∧ b.Shows rows.reverse limit n := fun n hn =>
    (h n (hlength ▸ hn)).shows hleast hmost hrows
  have hpage : ∀ n, n = 0 ∨ n < (rows.reverse.map fun x => x.toValue.written.sent).length →
      ∃ b, (ask n).response v = some b ∧
        b.items = ((rows.reverse.map fun x => x.toValue.written.sent).drop n).take limit ∧
        b.hasNext = !((rows.reverse.map fun x => x.toValue.written.sent).drop (n + limit)).isEmpty := by
    intro n hn
    rw [List.length_map] at hn
    obtain ⟨b, hb, hshown⟩ := hshows n hn
    refine ⟨b, hb, hshown.items, ?_⟩
    rw [hshown.hasNext, ← List.map_drop, List.isEmpty_map]
  obtain ⟨pages, hturns, hall, hpages⟩ := turns_of_pages hleast hpage
  refine ⟨rows.reverse, hnewest, hlength, pages, hturns, fun p hp => ?_, hall⟩
  obtain ⟨hask, hn⟩ := hpages p hp
  rw [List.length_map] at hn
  obtain ⟨b, hb, hshown⟩ := hshows p.1 hn
  obtain rfl := Option.some.inj (hask.symm.trans hb)
  exact hshown

/-! ### Two executions -/

/-- A pending execution of a tenant. -/
def pendingAt (id : String) (now : Moment) : Execution where
  id := id
  ruleId := "rule"
  tenantId := "one"
  triggeredBy := "manual"
  triggeredAt := now
  status := .pending
  startedAt := none
  completedAt := none
  duration := none
  triggerData := []
  context := .empty
  steps := []
  error := none
  result := none

/-- Two executions that were triggered at the same time. -/
def pair : ExecutionStore := .memory ⟨[pendingAt "first" (.utc 0), pendingAt "second" (.utc 0)]⟩

/-- The executions of the tenant. -/
def wanted : ExecutionQuery := .ofTenant "one"

/-- A request for a page of executions. -/
def visit (query : String) : Arrival Unit where
  site := Isolation.place
  now := .utc 0
  request := ⟨"GET", "/automations/executions", query, [("x-tenant-id", "one")], ""⟩
  engine := .start (.memory .empty) pair ()
  rungs := []

/-- The fields of a query are its named texts. -/
theorem fields_of_pairs {query : String} {pairs : List (String × String)}
    (h : ApiRequest.queryPairs (Text.byteChars query) = pairs) :
    (visit query).request.queryFields = Fields.ofPairs (pairs.map fun x => (x.1, .text x.2)) := by
  rw [← h]
  rfl

/-- A request whose query names no rule and no status asks for a page of all executions of the tenant. -/
theorem visit_asks {query : String} {fs : Fields} {limit offset : Nat} (hfs : (visit query).request.queryFields = fs)
    (hrule : Fields.get? fs "rule_id" = none) (hstatus : Fields.get? fs "status" = none)
    (hlimit : HoldsNumber fs "limit" 50 limit) (hoffset : HoldsNumber fs "offset" 0 offset) :
    (visit query).Asks pair wanted limit offset := by
  rw [← hfs] at hrule hstatus hlimit hoffset
  have hheader : (visit query).request.header? "x-tenant-id" = some "one" := rfl
  have htenant : (visit query).request.tenant = .ok "one" := by
    rw [ApiRequest.tenant, hheader]
    rfl
  exact ⟨⟨rfl, rfl, htenant, rfl, hrule, hstatus, nofun, hlimit, hoffset⟩, rfl, rfl⟩

/-- A request with one execution on a page. -/
def single (offset : Nat) : Arrival Unit := visit (if offset = 0 then "limit=1" else "limit=1&offset=1")

/-- Two executions are read one by one. -/
theorem executions_read_one_by_one :
    (∀ offset, offset = 0 ∨ offset < pair.total wanted → (single offset).Asks pair wanted 1 offset) ∧
      pair.CanList wanted ∧ ∃ rows, pair.NewestFirst wanted rows ∧ rows.length = 2 ∧
        ∃ pages, Turns (fun offset => (single offset).response Isolation.slow.environment) ApiResponse.hasNext 1 0 pages ∧
          (∀ p ∈ pages, p.2.Shows rows 1 p.1) ∧
          pages.flatMap (fun p => p.2.items) = rows.map fun x => x.toValue.written.sent := by
  have htotal : pair.total wanted = 2 := by decide +kernel
  have hone : Writes "1" 1 :=
    ⟨by decide, List.all_eq_true.mp (by decide), by decide, by decide⟩
  have hfirst : ApiRequest.queryPairs (Text.byteChars "limit=1") = [("limit", "1")] := by decide +kernel
  have hsecond : ApiRequest.queryPairs (Text.byteChars "limit=1&offset=1") = [("limit", "1"), ("offset", "1")] := by
    decide +kernel
  have hasks : ∀ offset, offset = 0 ∨ offset < pair.total wanted → (single offset).Asks pair wanted 1 offset := by
    intro offset hoffset
    obtain rfl | rfl : offset = 0 ∨ offset = 1 := by omega
    · exact visit_asks (fields_of_pairs hfirst) rfl rfl ⟨"1", rfl, hone⟩ rfl
    · exact visit_asks (fields_of_pairs hsecond) rfl rfl
        ⟨"1", rfl, hone⟩ ⟨"1", rfl, hone⟩
  have hcan : pair.CanList wanted := .inl (by decide)
  obtain ⟨rows, hnewest, hlength, hpages⟩ := (executions_read (Nat.le_refl 1) (by decide) hasks).1 hcan
  exact ⟨hasks, hcan, rows, hnewest, hlength.trans htotal, hpages⟩

/-- Pages of more than 500 executions are refused, and nothing is read. -/
theorem wide_page_refused :
    (visit "limit=501").Asks pair wanted 501 0 ∧ pair.CanList wanted ∧ pair.total wanted = 2 ∧
      ((visit "limit=501").response Isolation.slow.environment).map (fun a => (a.status, a.items.length, a.hasNext)) =
        some (422, 0, false) := by
  have hnumber : Writes "501" 501 :=
    ⟨by decide, List.all_eq_true.mp (by decide), by decide, by decide⟩
  have hquery : ApiRequest.queryPairs (Text.byteChars "limit=501") = [("limit", "501")] := by decide +kernel
  exact ⟨visit_asks (fields_of_pairs hquery) rfl rfl ⟨"501", rfl, hnumber⟩ rfl,
    .inl (by decide), by decide +kernel, by decide +kernel⟩

end Arrival

end Rulebook
