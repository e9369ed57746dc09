import Rulebook.Proofs.Schema.Reread

/-!
# Rules that are read again

What is read of the parts of a rule is read again from their payloads, whatever identifiers are fresh then
(`Trigger.rereads`, `Condition.rereads`, `Action.rereads`). So each column of a rule that was admitted can be
read again (`RuleDraft.IsAdmitted.reread`, `RuleDraft.read_fields_valid`).
-/

namespace Rulebook

open Checked Schema

/-! ### Triggers and conditions -/

/-- A schedule is read again. -/
theorem Schedule.rereads : Rereads read toValue := by
  intro v s h form
  obtain ⟨fs, rfl, hread⟩ := model_eq_valid.mp h
  simp only [seq_eq_valid, map_eq_valid] at hread
  obtain ⟨_, ⟨_, ⟨kind, hkind, rfl⟩, expression, hexpression, rfl⟩, timezone, htimezone, rfl⟩ := hread
  have hkind' := (rereads_named (by decide)).required hkind form
  have hexpression' := (rereads_text_of_length 1 (some 120)).required hexpression form
  have htimezone' := rereads_text.defaulted rfl rfl htimezone form
  cases form <;>
    exact seq_valid (seq_valid (map_valid (required_valid rfl hkind')) (required_valid rfl hexpression'))
    (defaulted_valid rfl htimezone')

/-- An authentication is read again. -/
theorem Authentication.rereads : Rereads read toValue := by
  intro v a h form
  obtain ⟨fs, rfl, hread⟩ := model_eq_valid.mp h
  simp only [seq_eq_valid, map_eq_valid] at hread
  obtain ⟨_, ⟨scheme, hscheme, rfl⟩, credentials, hcredentials, rfl⟩ := hread
  have hscheme' := (rereads_named (by decide)).required hscheme form
  have hcredentials' := rereads_text_fields.defaulted rfl rfl hcredentials form
  cases form <;>
    exact seq_valid (map_valid (required_valid rfl hscheme')) (defaulted_valid rfl hcredentials')

/-- A text that may be null is read again. -/
theorem rereads_optional_text : Rereads (optional text) (.ofOption .text) := 
  rereads_text.optional fun t form => by rw [PayloadForm.give_text]; rfl

/-- An authentication that may be null is read again. -/
theorem rereads_optional_authentication :
    Rereads (optional Authentication.read) (.ofOption Authentication.toValue) :=
  Authentication.rereads.optional fun _ form => by cases form <;> rfl

/-- An endpoint is read again. -/
theorem WebhookEndpoint.rereads : Rereads read toValue := by
  intro v w h form
  obtain ⟨fs, rfl, hread⟩ := model_eq_valid.mp h
  simp only [seq_eq_valid, map_eq_valid] at hread
  obtain ⟨_, ⟨_, ⟨_, ⟨_, ⟨webhookId, hid, rfl⟩, url, hurl, rfl⟩, method, hmethod, rfl⟩, headers, hheaders, rfl⟩,
    authentication, hauthentication, rfl⟩ := hread
  have hid' := rereads_optional_text.defaulted rfl rfl hid form
  have hurl' := rereads_optional_text.defaulted rfl rfl hurl form
  have hmethod' := (rereads_named (by decide)).defaulted rfl rfl hmethod form
  have hheaders' := rereads_text_fields.defaulted rfl rfl hheaders form
  have hauthentication' := rereads_optional_authentication.defaulted rfl rfl hauthentication form
  cases form <;>
    exact seq_valid (seq_valid (seq_valid (seq_valid (map_valid (defaulted_valid rfl hid'))
    (defaulted_valid rfl hurl')) (defaulted_valid rfl hmethod')) (defaulted_valid rfl hheaders'))
    (defaulted_valid rfl hauthentication')

/-- A polled condition is read again if the value that it compares with holds no time. -/
theorem Polling.rereads : RereadsPlain read toValue (·.value.isTimeless = true) := by
  refine ⟨fun v p h form hform => ?_, fun v p hv h => ?_⟩
  · obtain ⟨fs, rfl, hread⟩ := model_eq_valid.mp h
    simp only [seq_eq_valid, map_eq_valid] at hread
    obtain ⟨_, ⟨_, ⟨_, ⟨field, hfield, rfl⟩, operator, hoperator, rfl⟩, value, hvalue, rfl⟩, interval, hinterval,
      rfl⟩ := hread
    have hfield' := (rereads_text_of_length 1 (some 200)).required hfield form
    have hoperator' := (rereads_named (by decide)).defaulted rfl rfl hoperator form
    have hvalue' := rereads_any.defaulted rfl rfl hvalue form hform
    have hinterval' := (rereads_int_between 1 none).defaulted rfl rfl hinterval form
    cases form <;>
      exact seq_valid (seq_valid (seq_valid (map_valid (required_valid rfl hfield')) (defaulted_valid rfl hoperator'))
        (defaulted_valid rfl hvalue')) (defaulted_valid rfl hinterval')
  · obtain ⟨fs, rfl, hread⟩ := model_eq_valid.mp h
    simp only [seq_eq_valid, map_eq_valid] at hread
    obtain ⟨_, ⟨_, ⟨_, ⟨_, _, rfl⟩, _, _, rfl⟩, value, hvalue, rfl⟩, _, _, rfl⟩ := hread
    exact rereads_any.plain_defaulted hv rfl hvalue

namespace Condition

variable {fresh other : String} {v : Value} {c : Condition}

/-- A condition is read again, whatever identifier is fresh, if the value that it compares with holds no time. -/
theorem rereads (h : read fresh v = .valid c) (form : PayloadForm)
    (hform : form = .json → c.value.isTimeless = true) : read other (form.give c.toValue) = .valid c := by
  obtain ⟨fs, rfl, hread⟩ := model_eq_valid.mp h
  simp only [seq_eq_valid, map_eq_valid] at hread
  obtain ⟨_, ⟨_, ⟨_, ⟨_, ⟨_, ⟨id, hid, rfl⟩, field, hfield, rfl⟩, operator, hoperator, rfl⟩, value, hvalue, rfl⟩,
    connective, hconnective, rfl⟩, group, hgroup, rfl⟩ := hread
  have hid' : text (form.give (.text id)) = .valid id := rereads_text (.text id) id rfl form
  have hfield' := (rereads_text_of_length 1 (some 200)).required hfield form
  have hoperator' := (rereads_named (by decide)).defaulted rfl rfl hoperator form
  have hvalue' := rereads_any.defaulted rfl rfl hvalue form hform
  have hconnective' := (rereads_named (by decide)).defaulted rfl rfl hconnective form
  have hgroup' := rereads_optional_text.defaulted rfl rfl hgroup form
  cases form <;>
    exact seq_valid (seq_valid (seq_valid (seq_valid (seq_valid (map_valid (defaulted_valid rfl hid'))
      (required_valid rfl hfield')) (defaulted_valid rfl hoperator')) (defaulted_valid rfl hvalue'))
      (defaulted_valid rfl hconnective')) (defaulted_valid rfl hgroup')

/-- The value of a condition that is read of one without times holds none. -/
theorem plain_of_timeless (hv : v.isTimeless = true) (h : read fresh v = .valid c) : c.value.isTimeless = true := by
  obtain ⟨fs, rfl, hread⟩ := model_eq_valid.mp h
  simp only [seq_eq_valid, map_eq_valid] at hread
  obtain ⟨_, ⟨_, ⟨_, ⟨_, ⟨_, ⟨_, _, rfl⟩, _, _, rfl⟩, _, _, rfl⟩, value, hvalue, rfl⟩, _, _, rfl⟩, _, _, rfl⟩ := hread
  exact rereads_any.plain_defaulted hv rfl hvalue

end Condition

namespace Trigger

variable {fresh other : String} {fs : Fields} {t : Trigger} {s : TriggerSource} {v : Value}

/-- The values of a trigger that may be anything. -/
def untyped (t : Trigger) : List Value :=
  .object t.filters :: match t.source with
    | .condition p => [p.value]
    | _ => []

/-- What a trigger reacts to is read of the fields of a payload. -/
def Reads (fs : Fields) : TriggerSource → Prop
  | .event e => required fs "event_type" (textOfLength 1 (some 120)) = .valid e
  | .schedule s => required fs "schedule" Schedule.read = .valid s
  | .webhook w => defaulted fs "webhook" WebhookEndpoint.read .plain = .valid w
  | .condition p => required fs "condition" Polling.read = .valid p
  | .manual => True

/-- The parts that all triggers have are read of the fields that hold them. -/
theorem read_with_valid {source : Checked TriggerSource} (hid : Fields.get? fs "id" = some (.text t.id))
    (hname : Fields.get? fs "name" = some (.text t.name)) (henabled : Fields.get? fs "enabled" = some (.bool t.enabled))
    (hfilters : Fields.get? fs "filters" = some v) (hv : object v = .valid t.filters)
    (hsource : source = .valid t.source) : readWith fresh fs source = .valid t := by
  have htext : ∀ s, text (.text s) = .valid s := fun _ => rfl
  have hbool : Schema.bool (.bool t.enabled) = .valid t.enabled := rfl
  exact seq_valid (seq_valid (seq_valid (seq_valid (map_valid (defaulted_valid hid (htext _)))
    (defaulted_valid hname (htext _))) (defaulted_valid henabled hbool)) (defaulted_valid hfilters hv)) hsource

/-- What a trigger reacts to is read beside the name of its kind. -/
theorem read_source_valid {kind : String} {source : Checked TriggerSource}
    (htype : Fields.get? fs "type" = some (.text kind)) (hsource : source = .valid s) :
    readSource kind fs source = .valid s := by
  have hkind : constant kind (.text kind) = .valid () := if_pos (beq_self_eq_true kind)
  exact seq_valid (map_valid (defaulted_valid htype hkind)) hsource

/-- A trigger that is read has filters that are read, and what it reacts to is that of a reader. -/
theorem read_with_eq_valid {kind : String} {source : Checked TriggerSource}
    (h : readWith fresh fs (readSource kind fs source) = .valid t) :
    defaulted fs "filters" object [] = .valid t.filters ∧ source = .valid t.source := by
  simp only [readWith, readSource, seq_eq_valid, map_eq_valid] at h
  obtain ⟨_, ⟨_, ⟨_, ⟨_, ⟨id, _, rfl⟩, name, _, rfl⟩, enabled, _, rfl⟩, filters, hfilters, rfl⟩, s,
    ⟨_, ⟨_, _, rfl⟩, _, hsource, rfl⟩, rfl⟩ := h
  exact ⟨hfilters, hsource⟩

/-- The fields of which a trigger is read hold its filters and what it reacts to. -/
theorem fields_of_read (h : read fresh v = .valid t) :
    ∃ fs, v = .object fs ∧ defaulted fs "filters" object [] = .valid t.filters ∧ Reads fs t.source := by
  obtain ⟨fs, tag, kind, reader, rfl, _, hfound, hread⟩ := tagged_eq_valid.mp h
  have hmem := List.mem_of_find?_eq_some hfound
  simp only [variants, List.mem_cons, List.not_mem_nil, or_false, Prod.mk.injEq] at hmem
  obtain ⟨id, name, enabled, filters, source⟩ := t
  obtain ⟨rfl, rfl⟩ | ⟨rfl, rfl⟩ | ⟨rfl, rfl⟩ | ⟨rfl, rfl⟩ | ⟨rfl, rfl⟩ := hmem
  all_goals obtain ⟨hfilters, hsource⟩ := read_with_eq_valid hread
  · obtain ⟨eventType, hevent, rfl⟩ := map_eq_valid.mp hsource
    exact ⟨fs, rfl, hfilters, hevent⟩
  · obtain ⟨schedule, hschedule, rfl⟩ := map_eq_valid.mp hsource
    exact ⟨fs, rfl, hfilters, hschedule⟩
  · obtain ⟨endpoint, hendpoint, rfl⟩ := map_eq_valid.mp hsource
    exact ⟨fs, rfl, hfilters, hendpoint⟩
  · obtain ⟨polling, hpolling, rfl⟩ := map_eq_valid.mp hsource
    exact ⟨fs, rfl, hfilters, hpolling⟩
  · obtain rfl := Checked.valid.inj hsource
    exact ⟨fs, rfl, hfilters, trivial⟩

/-- A trigger is read again, whatever identifier is fresh, if its values that may be anything hold no times. -/
theorem rereads (h : read fresh v = .valid t) (form : PayloadForm)
    (hform : form = .json → ∀ u ∈ t.untyped, u.isTimeless = true) : read other (form.give t.toValue) = .valid t := by
  obtain ⟨fs, rfl, hfilters, hsource⟩ := fields_of_read h
  obtain ⟨id, name, enabled, filters, source⟩ := t
  have hfilters' := rereads_object.defaulted rfl rfl hfilters form fun hjson => hform hjson _ List.mem_cons_self
  cases source with
  | event eventType =>
      have hevent := (rereads_text_of_length 1 (some 120)).required hsource form
      cases form <;>
        exact tagged_eq_valid.mpr ⟨_, _, _, _, rfl, rfl, rfl, read_with_valid rfl rfl rfl rfl hfilters'
          (read_source_valid rfl (map_valid (required_valid rfl hevent)))⟩
  | schedule schedule =>
      have hschedule := Schedule.rereads.required hsource form
      cases form <;>
        exact tagged_eq_valid.mpr ⟨_, _, _, _, rfl, rfl, rfl, read_with_valid rfl rfl rfl rfl hfilters'
          (read_source_valid rfl (map_valid (required_valid rfl hschedule)))⟩
  | webhook endpoint =>
      have hendpoint := WebhookEndpoint.rereads.defaulted rfl rfl hsource form
      cases form <;>
        exact tagged_eq_valid.mpr ⟨_, _, _, _, rfl, rfl, rfl, read_with_valid rfl rfl rfl rfl hfilters'
          (read_source_valid rfl (map_valid (defaulted_valid rfl hendpoint)))⟩
  | condition polling =>
      have hpolling := Polling.rereads.required hsource form fun hjson =>
        hform hjson polling.value (List.mem_cons_of_mem _ (List.mem_singleton_self _))
      cases form <;>
        exact tagged_eq_valid.mpr ⟨_, _, _, _, rfl, rfl, rfl, read_with_valid rfl rfl rfl rfl hfilters'
          (read_source_valid rfl (map_valid (required_valid rfl hpolling)))⟩
  | manual =>
      cases form <;>
        exact tagged_eq_valid.mpr ⟨_, _, _, _, rfl, rfl, rfl, read_with_valid rfl rfl rfl rfl hfilters'
          (read_source_valid rfl rfl)⟩

/-- The values of a trigger that is read of one without times hold none. -/
theorem plain_of_timeless (hv : v.isTimeless = true) (h : read fresh v = .valid t) :
    ∀ u ∈ t.untyped, u.isTimeless = true := by
  obtain ⟨fs, rfl, hfilters, hsource⟩ := fields_of_read h
  obtain ⟨id, name, enabled, filters, source⟩ := t
  refine List.forall_mem_cons.mpr ⟨rereads_object.plain_defaulted hv rfl hfilters, ?_⟩
  cases source with
  | condition polling => exact List.forall_mem_singleton.mpr (Polling.rereads.plain_required hv hsource)
  | _ => exact nofun

end Trigger

/-! ### Actions -/

/-- The values of an action that may be anything. -/
def ActionConfig.untyped : ActionConfig → List Value
  | .database c => [.object c.data, .object c.conditions]
  | .file c => [.object c.options]
  | .workflow c => [.object c.data]
  | .custom c => [.object c.parameters]
  | _ => []

/-- The times of an action. -/
def ActionConfig.times : ActionConfig → List Moment
  | .assignment c => c.dueDate.toList
  | _ => []

/-- The values of an action that may be anything hold no times, and its times can be told. -/
structure ActionConfig.IsPlain (c : ActionConfig) : Prop where
  untyped : ∀ u ∈ c.untyped, u.isTimeless = true
  times : ∀ m ∈ c.times, m.IsTold

/-- A notification is read again. -/
theorem NotificationConfig.rereads : Rereads read fun c => (ActionConfig.notification c).toValue := by
  intro v c h form
  obtain ⟨fs, rfl, hread⟩ := model_eq_valid.mp h
  simp only [seq_eq_valid, map_eq_valid] at hread
  obtain ⟨_, ⟨_, ⟨_, ⟨_, ⟨channel, hchannel, rfl⟩, recipients, hrecipients, rfl⟩, template, htemplate, rfl⟩,
    title, htitle, rfl⟩, values, hvalues, rfl⟩ := hread
  have hchannel' := (rereads_named (by decide)).defaulted rfl rfl hchannel form
  have hrecipients' := (rereads_texts_of_number 1).required hrecipients form
  have htemplate' := (rereads_text_of_length 1 none).required htemplate form
  have htitle' := rereads_optional_text.defaulted rfl rfl htitle form
  have hvalues' := rereads_text_fields.defaulted rfl rfl hvalues form
  cases form <;>
    exact seq_valid (seq_valid (seq_valid (seq_valid (map_valid (defaulted_valid rfl hchannel'))
    (required_valid rfl hrecipients')) (required_valid rfl htemplate')) (defaulted_valid rfl htitle'))
    (defaulted_valid rfl hvalues')

/-- A mail is read again. -/
theorem EmailConfig.rereads : Rereads read fun c => (ActionConfig.email c).toValue := by
  intro v c h form
  obtain ⟨fs, rfl, hread⟩ := model_eq_valid.mp h
  simp only [seq_eq_valid, map_eq_valid] at hread
  obtain ⟨_, ⟨_, ⟨_, ⟨_, ⟨_, ⟨receivers, hreceivers, rfl⟩, cc, hcc, rfl⟩, bcc, hbcc, rfl⟩, subject, hsubject, rfl⟩,
    body, hbody, rfl⟩, attachments, hattachments, rfl⟩ := hread
  have hreceivers' := (rereads_texts_of_number 1).required hreceivers form
  have hcc' := rereads_texts.defaulted rfl rfl hcc form
  have hbcc' := rereads_texts.defaulted rfl rfl hbcc form
  have hsubject' := rereads_text.required hsubject form
  have hbody' := rereads_text.required hbody form
  have hattachments' := rereads_texts.defaulted rfl rfl hattachments form
  cases form <;>
    exact seq_valid (seq_valid (seq_valid (seq_valid (seq_valid (map_valid (required_valid rfl hreceivers'))
    (defaulted_valid rfl hcc')) (defaulted_valid rfl hbcc')) (required_valid rfl hsubject'))
    (required_valid rfl hbody')) (defaulted_valid rfl hattachments')

/-- A call of a web address is read again. -/
theorem WebhookConfig.rereads : Rereads read fun c => (ActionConfig.webhook c).toValue := by
  intro v c h form
  obtain ⟨fs, rfl, hread⟩ := model_eq_valid.mp h
  simp only [seq_eq_valid, map_eq_valid] at hread
  obtain ⟨_, ⟨_, ⟨_, ⟨_, ⟨url, hurl, rfl⟩, method, hmethod, rfl⟩, headers, hheaders, rfl⟩, body, hbody, rfl⟩,
    authentication, hauthentication, rfl⟩ := hread
  have hurl' := (rereads_text_of_length 1 none).required hurl form
  have hmethod' := (rereads_named (by decide)).defaulted rfl rfl hmethod form
  have hheaders' := rereads_text_fields.defaulted rfl rfl hheaders form
  have hbody' := rereads_optional_text.defaulted rfl rfl hbody form
  have hauthentication' := rereads_optional_authentication.defaulted rfl rfl hauthentication form
  cases form <;>
    exact seq_valid (seq_valid (seq_valid (seq_valid (map_valid (required_valid rfl hurl'))
    (defaulted_valid rfl hmethod')) (defaulted_valid rfl hheaders')) (defaulted_valid rfl hbody'))
    (defaulted_valid rfl hauthentication')

/-- An operation on a table is read again if it is plain. -/
theorem DatabaseConfig.rereads : RereadsPlain read (fun c => (ActionConfig.database c).toValue)
    fun c => (ActionConfig.database c).IsPlain := by
  refine ⟨fun v c h form hform => ?_, fun v c hv h => ?_⟩
  · obtain ⟨fs, rfl, hread⟩ := model_eq_valid.mp h
    simp only [seq_eq_valid, map_eq_valid] at hread
    obtain ⟨_, ⟨_, ⟨_, ⟨operation, hoperation, rfl⟩, table, htable, rfl⟩, data, hdata, rfl⟩, conditions,
      hconditions, rfl⟩ := hread
    have hoperation' := (rereads_named (by decide)).required hoperation form
    have htable' := (rereads_text_of_length 1 (some 120)).required htable form
    have hdata' := rereads_object.defaulted rfl rfl hdata form fun hjson =>
      (hform hjson).untyped _ List.mem_cons_self
    have hconditions' := rereads_object.defaulted rfl rfl hconditions form fun hjson =>
      (hform hjson).untyped _ (List.mem_cons_of_mem _ List.mem_cons_self)
    cases form <;>
      exact seq_valid (seq_valid (seq_valid (map_valid (required_valid rfl hoperation'))
        (required_valid rfl htable')) (defaulted_valid rfl hdata')) (defaulted_valid rfl hconditions')
  · obtain ⟨fs, rfl, hread⟩ := model_eq_valid.mp h
    simp only [seq_eq_valid, map_eq_valid] at hread
    obtain ⟨_, ⟨_, ⟨_, ⟨_, _, rfl⟩, _, _, rfl⟩, data, hdata, rfl⟩, conditions, hconditions, rfl⟩ := hread
    have hdata' := rereads_object.plain_defaulted hv rfl hdata
    have hconditions' := rereads_object.plain_defaulted hv rfl hconditions
    exact ⟨List.forall_mem_cons.mpr ⟨hdata', List.forall_mem_singleton.mpr hconditions'⟩, nofun⟩

/-- An operation on a file that is checked stays as it is. -/
theorem FileConfig.eq_of_check {c d : FileConfig} (h : c.check = .valid d) : c = d := by
  unfold check at h
  split at h
  · cases h
  · exact Checked.valid.inj h

/-- An operation on a file is read again if it is plain. -/
theorem FileConfig.rereads : RereadsPlain read (fun c => (ActionConfig.file c).toValue)
    fun c => (ActionConfig.file c).IsPlain := by
  refine ⟨fun v c h form hform => ?_, fun v c hv h => ?_⟩
  · obtain ⟨fs, rfl, hread⟩ := model_eq_valid.mp h
    obtain ⟨d, hd, hcheck⟩ := then_eq_valid.mp hread
    obtain rfl := eq_of_check hcheck
    simp only [seq_eq_valid, map_eq_valid] at hd
    obtain ⟨_, ⟨_, ⟨_, ⟨operation, hoperation, rfl⟩, source, hsource, rfl⟩, destination, hdestination, rfl⟩, options,
      hoptions, rfl⟩ := hd
    have hoperation' := (rereads_named (by decide)).required hoperation form
    have hsource' := (rereads_text_of_length 1 none).required hsource form
    have hdestination' := rereads_optional_text.defaulted rfl rfl hdestination form
    have hoptions' := rereads_object.defaulted rfl rfl hoptions form fun hjson =>
      (hform hjson).untyped _ List.mem_cons_self
    cases form <;>
      exact then_eq_valid.mpr ⟨_, seq_valid (seq_valid (seq_valid (map_valid (required_valid rfl hoperation'))
        (required_valid rfl hsource')) (defaulted_valid rfl hdestination')) (defaulted_valid rfl hoptions'), hcheck⟩
  · obtain ⟨fs, rfl, hread⟩ := model_eq_valid.mp h
    obtain ⟨d, hd, hcheck⟩ := then_eq_valid.mp hread
    obtain rfl := eq_of_check hcheck
    simp only [seq_eq_valid, map_eq_valid] at hd
    obtain ⟨_, ⟨_, ⟨_, ⟨_, _, rfl⟩, _, _, rfl⟩, _, _, rfl⟩, options, hoptions, rfl⟩ := hd
    exact ⟨List.forall_mem_singleton.mpr (rereads_object.plain_defaulted hv rfl hoptions), nofun⟩

/-- A workflow is read again if it is plain. -/
theorem WorkflowConfig.rereads : RereadsPlain read (fun c => (ActionConfig.workflow c).toValue)
    fun c => (ActionConfig.workflow c).IsPlain := by
  refine ⟨fun v c h form hform => ?_, fun v c hv h => ?_⟩
  · obtain ⟨fs, rfl, hread⟩ := model_eq_valid.mp h
    simp only [seq_eq_valid, map_eq_valid] at hread
    obtain ⟨_, ⟨_, ⟨workflowId, hid, rfl⟩, data, hdata, rfl⟩, assignTo, hassign, rfl⟩ := hread
    have hid' := (rereads_text_of_length 1 none).required hid form
    have hdata' := rereads_object.defaulted rfl rfl hdata form fun hjson =>
      (hform hjson).untyped _ List.mem_cons_self
    have hassign' := rereads_texts.defaulted rfl rfl hassign form
    cases form <;>
      exact seq_valid (seq_valid (map_valid (required_valid rfl hid')) (defaulted_valid rfl hdata'))
        (defaulted_valid rfl hassign')
  · obtain ⟨fs, rfl, hread⟩ := model_eq_valid.mp h
    simp only [seq_eq_valid, map_eq_valid] at hread
    obtain ⟨_, ⟨_, ⟨_, _, rfl⟩, data, hdata, rfl⟩, _, _, rfl⟩ := hread
    exact ⟨List.forall_mem_singleton.mpr (rereads_object.plain_defaulted hv rfl hdata), nofun⟩

/-- The payload of those to whom work is assigned. -/
def Assignees.toValue : Assignees → Value
  | .one user => .text user
  | .many users => .texts users

/-- One user or a list is read again as such. -/
theorem Assignees.rereads : Rereads read toValue := by
  intro v a h form
  unfold read at h
  split at h
  next =>
    obtain rfl := Checked.valid.inj h
    rw [toValue, PayloadForm.give_text]
    rfl
  next =>
    split at h
    next l hl =>
      obtain rfl := Checked.valid.inj h
      have hl' : texts (form.give (Value.texts l)) = .valid l := rereads_texts v l hl form
      have htext : ∀ t, form.give (Value.texts l) ≠ .text t := by cases form <;> exact nofun
      rw [toValue, read, hl']
      exact htext
    next => split at h <;> cases h

/-- An assignment is read again if it is plain. -/
theorem AssignmentConfig.rereads : RereadsPlain read (fun c => (ActionConfig.assignment c).toValue)
    fun c => (ActionConfig.assignment c).IsPlain := by
  refine ⟨fun v c h form hform => ?_, fun v c hv h => ?_⟩
  · obtain ⟨fs, rfl, hread⟩ := model_eq_valid.mp h
    simp only [seq_eq_valid, map_eq_valid] at hread
    obtain ⟨_, ⟨_, ⟨_, ⟨_, ⟨assignTo, hassign, rfl⟩, kind, hkind, rfl⟩, entityId, hentity, rfl⟩, priority, hpriority,
      rfl⟩, dueDate, hdue, rfl⟩ := hread
    have hassign' := Assignees.rereads.required hassign form
    have hkind' := (rereads_named (by decide)).defaulted rfl rfl hkind form
    have hentity' := (rereads_text_of_length 1 none).required hentity form
    have hpriority' := (rereads_named (by decide)).defaulted rfl rfl hpriority form
    have hdue' := rereads_optional_moment.defaulted rfl rfl hdue form fun hjson m hm =>
      (hform hjson).times m (Option.mem_toList.mpr hm)
    cases form <;>
      exact seq_valid (seq_valid (seq_valid (seq_valid (map_valid (required_valid rfl hassign'))
        (defaulted_valid rfl hkind')) (required_valid rfl hentity')) (defaulted_valid rfl hpriority'))
        (defaulted_valid rfl hdue')
  · obtain ⟨fs, rfl, hread⟩ := model_eq_valid.mp h
    simp only [seq_eq_valid, map_eq_valid] at hread
    obtain ⟨_, ⟨_, ⟨_, ⟨_, ⟨_, _, rfl⟩, _, _, rfl⟩, _, _, rfl⟩, _, _, rfl⟩, dueDate, hdue, rfl⟩ := hread
    have hdue' := rereads_optional_moment.plain_defaulted hv (by simp) hdue
    exact ⟨nofun, fun m hm => hdue' m (Option.mem_toList.mp hm)⟩

/-- A script is read again if it is plain. -/
theorem CustomConfig.rereads : RereadsPlain read (fun c => (ActionConfig.custom c).toValue)
    fun c => (ActionConfig.custom c).IsPlain := by
  refine ⟨fun v c h form hform => ?_, fun v c hv h => ?_⟩
  · obtain ⟨fs, rfl, hread⟩ := model_eq_valid.mp h
    simp only [seq_eq_valid, map_eq_valid] at hread
    obtain ⟨_, ⟨_, ⟨script, hscript, rfl⟩, language, hlanguage, rfl⟩, parameters, hparameters, rfl⟩ := hread
    have hscript' := (rereads_text_of_length 1 none).required hscript form
    have hlanguage' := (rereads_named (by decide)).defaulted rfl rfl hlanguage form
    have hparameters' := rereads_object.defaulted rfl rfl hparameters form fun hjson =>
      (hform hjson).untyped _ List.mem_cons_self
    cases form <;>
      exact seq_valid (seq_valid (map_valid (required_valid rfl hscript')) (defaulted_valid rfl hlanguage'))
        (defaulted_valid rfl hparameters')
  · obtain ⟨fs, rfl, hread⟩ := model_eq_valid.mp h
    simp only [seq_eq_valid, map_eq_valid] at hread
    obtain ⟨_, ⟨_, ⟨_, _, rfl⟩, _, _, rfl⟩, parameters, hparameters, rfl⟩ := hread
    exact ⟨List.forall_mem_singleton.mpr (rereads_object.plain_defaulted hv rfl hparameters), nofun⟩

namespace Action

variable {kind : ActionKind} {v : Value} {c : ActionConfig} {a : Action} {fresh other : String}

/-- What an action of a kind does is of that kind. -/
theorem kind_of_config (h : readConfig kind v = .valid c) : c.kind = kind := by
  cases kind <;> obtain ⟨_, _, rfl⟩ := transformed_eq_valid.mp h <;> rfl

/-- What an action does is read again if it is plain. -/
theorem rereads_config (kind : ActionKind) :
    RereadsPlain (readConfig kind) ActionConfig.toValue ActionConfig.IsPlain := by
  cases kind with
  | notification => exact (NotificationConfig.rereads.toPlain _ fun _ => ⟨nofun, nofun⟩).map
  | email => exact (EmailConfig.rereads.toPlain _ fun _ => ⟨nofun, nofun⟩).map
  | webhook => exact (WebhookConfig.rereads.toPlain _ fun _ => ⟨nofun, nofun⟩).map
  | database => exact DatabaseConfig.rereads.map
  | fileOperation => exact FileConfig.rereads.map
  | workflow => exact WorkflowConfig.rereads.map
  | assignment => exact AssignmentConfig.rereads.map
  | custom => exact CustomConfig.rereads.map

/-- The name of a kind selects its reader. -/
theorem variant_of_kind (fresh : String) (kind : ActionKind) :
    (variants fresh).find? (fun (n, _) => some (Enumeration.name kind) == some n) =
      some (Enumeration.name kind, readWith fresh (Enumeration.name kind) (readConfig kind)) := by
  cases kind <;> rfl

/-- The fields of which an action is read hold what it does. -/
theorem fields_of_read (h : read fresh v = .valid a) :
    ∃ fs, v = .object fs ∧ required fs "config" (readConfig a.config.kind) = .valid a.config := by
  obtain ⟨fs, tag, name, reader, rfl, _, hfound, hread⟩ := tagged_eq_valid.mp h
  obtain ⟨kind, _, heq⟩ := List.mem_map.mp (List.mem_of_find?_eq_some hfound)
  obtain ⟨rfl, rfl⟩ := Prod.mk.inj heq
  simp only [readWith, seq_eq_valid, map_eq_valid] at hread
  obtain ⟨_, ⟨_, ⟨_, ⟨_, ⟨_, ⟨_, ⟨_, _, rfl⟩, _, _, rfl⟩, _, _, rfl⟩, _, _, rfl⟩, _, _, rfl⟩, _, _, rfl⟩, config,
    hconfig, rfl⟩ := hread
  obtain ⟨w, _, hw⟩ := required_eq_valid.mp hconfig
  obtain rfl := kind_of_config hw
  exact ⟨fs, rfl, hconfig⟩

/-- An action is read again, whatever identifier is fresh, if what it does is plain. -/
theorem rereads (h : read fresh v = .valid a) (form : PayloadForm) (hform : form = .json → a.config.IsPlain) :
    read other (form.give a.toValue) = .valid a := by
  obtain ⟨fs, rfl, hconfig⟩ := fields_of_read h
  obtain ⟨id, name, order, enabled, continueOnError, config⟩ := a
  have htext : ∀ t, text (.text t) = .valid t := fun _ => rfl
  have hint : Schema.int (.int order) = .valid order := rfl
  have hbool : ∀ b, Schema.bool (.bool b) = .valid b := fun _ => rfl
  have hkind : constant (Enumeration.name config.kind) (.text (Enumeration.name config.kind)) = .valid () :=
    if_pos (beq_self_eq_true _)
  have hconfig' := (rereads_config config.kind).required hconfig form hform
  cases form <;>
    exact tagged_eq_valid.mpr ⟨_, _, _, _, rfl, rfl, variant_of_kind other config.kind,
      seq_valid (seq_valid (seq_valid (seq_valid (seq_valid (seq_valid (map_valid (defaulted_valid rfl (htext id)))
      (defaulted_valid rfl (htext name))) (defaulted_valid rfl hint)) (defaulted_valid rfl (hbool enabled)))
      (defaulted_valid rfl (hbool continueOnError))) (defaulted_valid rfl hkind)) (required_valid rfl hconfig')⟩

/-- What an action does that is read of a value without times is plain. -/
theorem plain_of_timeless (hv : v.isTimeless = true) (h : read fresh v = .valid a) : a.config.IsPlain := by
  obtain ⟨fs, rfl, hconfig⟩ := fields_of_read h
  exact (rereads_config _).plain_required hv hconfig

end Action

/-! ### Settings and metadata -/

/-- Limits are read again. -/
theorem RuleSettings.rereads : Rereads read toValue := by
  intro v s h form
  obtain ⟨fs, rfl, hread⟩ := model_eq_valid.mp h
  simp only [seq_eq_valid, map_eq_valid] at hread
  obtain ⟨_, ⟨_, ⟨_, ⟨_, ⟨quota, hquota, rfl⟩, cooldown, hcooldown, rfl⟩, retries, hretries, rfl⟩, timeout, htimeout,
    rfl⟩, parallel, hparallel, rfl⟩ := hread
  have hquota' := (rereads_int_between 1 none).defaulted rfl rfl hquota form
  have hcooldown' := (rereads_int_between 0 none).defaulted rfl rfl hcooldown form
  have hretries' := (rereads_int_between 0 (some 10)).defaulted rfl rfl hretries form
  have htimeout' := (rereads_int_between 0 (some 86400)).defaulted rfl rfl htimeout form
  have hparallel' := rereads_bool.defaulted rfl rfl hparallel form
  cases form <;>
    exact seq_valid (seq_valid (seq_valid (seq_valid (map_valid (defaulted_valid rfl hquota'))
    (defaulted_valid rfl hcooldown')) (defaulted_valid rfl hretries')) (defaulted_valid rfl htimeout'))
    (defaulted_valid rfl hparallel')

/-- Metadata are read of their payload, in JSON if the time of the last execution can be told. -/
theorem RuleMetadata.read_give (m : RuleMetadata) (form : PayloadForm)
    (hform : form = .json → ∀ t ∈ m.lastExecuted, t.IsTold) : read (form.give m.toValue) = .valid m := by
  have hby : text (form.give (.text m.createdBy)) = .valid m.createdBy := rereads_text (.text _) _ rfl form
  have hcategory : named (form.give (.ofName m.category)) = .valid m.category := by
    rw [Value.ofName, PayloadForm.give_text]
    exact named_of_name (by decide) (by cases m.category <;> decide)
  have htags := texts_valid m.tags form
  have hlast : optional moment (form.give (.ofOption .moment m.lastExecuted)) = .valid m.lastExecuted :=
    rereads_optional_moment.again (.ofOption .moment m.lastExecuted) _ (by cases m.lastExecuted <;> rfl) form hform
  have hcount : Schema.int (form.give (.int m.executionCount)) = .valid m.executionCount :=
    rereads_int (.int _) _ rfl form
  have hfloat : ∀ x, Schema.float (form.give (.float x)) = .valid x := fun x => rereads_float (.float x) x rfl form
  have hrate := hfloat m.successRate
  have hmean := hfloat m.avgExecutionTime
  cases form <;>
    exact seq_valid (seq_valid (seq_valid (seq_valid (seq_valid (seq_valid (map_valid (defaulted_valid rfl hby))
      (defaulted_valid rfl hcategory)) (defaulted_valid rfl htags)) (defaulted_valid rfl hlast))
      (defaulted_valid rfl hcount)) (defaulted_valid rfl hrate)) (defaulted_valid rfl hmean)

/-- Metadata are read again if the time of the last execution can be told. -/
theorem RuleMetadata.rereads : RereadsPlain read toValue (∀ t ∈ ·.lastExecuted, t.IsTold) := by
  refine ⟨fun v m _ => read_give m, fun v m hv h => ?_⟩
  obtain ⟨fs, rfl, hread⟩ := model_eq_valid.mp h
  simp only [seq_eq_valid, map_eq_valid] at hread
  obtain ⟨_, ⟨_, ⟨_, ⟨_, ⟨_, ⟨_, ⟨_, _, rfl⟩, _, _, rfl⟩, _, _, rfl⟩, lastExecuted, hlast, rfl⟩, _, _, rfl⟩, _, _,
    rfl⟩, _, _, rfl⟩ := hread
  exact rereads_optional_moment.plain_defaulted hv (by simp) hlast

/-! ### Definitions and drafts -/

/-- The values that may be anything in the parts of a definition hold no times, and its times can be told. -/
structure RuleDefinition.IsPlain (d : RuleDefinition) : Prop where
  triggers : ∀ t ∈ d.triggers, ∀ u ∈ t.untyped, u.isTimeless = true
  conditions : ∀ c ∈ d.conditions, c.value.isTimeless = true
  actions : ∀ a ∈ d.actions, a.config.IsPlain
  lastExecuted : ∀ m ∈ d.metadata.lastExecuted, m.IsTold

/-- Each part of a definition is read again from its payload in a form, whatever identifiers are fresh. -/
structure RuleDefinition.IsReread (form : PayloadForm) (d : RuleDefinition) : Prop where
  name : textOfLength 2 (some 120) (form.give (.text d.name)) = .valid d.name
  description : textOfLength 0 (some 255) (form.give (.text d.description)) = .valid d.description
  triggers : ∀ fresh : Nat → String, listOf (fun i => Trigger.read (fresh i))
    (form.give (Value.list (d.triggers.map Trigger.toValue))) = .valid d.triggers
  conditions : ∀ fresh : Nat → String, listOf (fun i => Condition.read (fresh i))
    (form.give (Value.list (d.conditions.map Condition.toValue))) = .valid d.conditions
  actions : ∀ fresh : Nat → String, listOf (fun i => Action.read (fresh i))
    (form.give (Value.list (d.actions.map Action.toValue))) = .valid d.actions
  settings : RuleSettings.read (form.give d.settings.toValue) = .valid d.settings
  metadata : RuleMetadata.read (form.give d.metadata.toValue) = .valid d.metadata

namespace RuleDefinition

variable {ids : FreshIds} {fs : Fields} {d : RuleDefinition}

/-- The parts of a definition are read again from their payloads as they are, and in JSON if they are plain. -/
theorem reread_of_fields (h : readFields ids fs = .valid d) (form : PayloadForm) (hform : form = .json → d.IsPlain) :
    d.IsReread form := by
  simp only [readFields, seq_eq_valid, map_eq_valid] at h
  obtain ⟨_, ⟨_, ⟨_, ⟨_, ⟨_, ⟨_, ⟨_, ⟨_, ⟨name, hname, rfl⟩, description, hdescription, rfl⟩, priority, _, rfl⟩,
    isActive, _, rfl⟩, triggers, htriggers, rfl⟩, conditions, hconditions, rfl⟩, actions, hactions, rfl⟩, settings,
    hsettings, rfl⟩, metadata, hmetadata, rfl⟩ := h
  exact
    { name := (rereads_text_of_length 2 (some 120)).required hname form
      description := (rereads_text_of_length 0 (some 255)).defaulted rfl rfl hdescription form
      triggers := fun fresh => defaulted_list_rereads form htriggers fun t ht _ _ _ hread =>
        Trigger.rereads hread form fun hjson => (hform hjson).triggers t ht
      conditions := fun fresh => defaulted_list_rereads form hconditions fun c hc _ _ _ hread =>
        Condition.rereads hread form fun hjson => (hform hjson).conditions c hc
      actions := fun fresh => defaulted_list_rereads form hactions fun a ha _ _ _ hread =>
        Action.rereads hread form fun hjson => (hform hjson).actions a ha
      settings := RuleSettings.rereads.defaulted rfl rfl hsettings form
      metadata := RuleMetadata.rereads.defaulted rfl rfl hmetadata form fun hjson => (hform hjson).lastExecuted }

/-- A definition that is read of values without times is plain. -/
theorem plain_of_timeless (hfs : haveNoTime fs = true) (h : readFields ids fs = .valid d) : d.IsPlain := by
  simp only [readFields, seq_eq_valid, map_eq_valid] at h
  obtain ⟨_, ⟨_, ⟨_, ⟨_, ⟨_, ⟨_, ⟨_, ⟨_, ⟨_, _, rfl⟩, _, _, rfl⟩, _, _, rfl⟩, _, _, rfl⟩, triggers, htriggers, rfl⟩,
    conditions, hconditions, rfl⟩, actions, hactions, rfl⟩, _, _, rfl⟩, metadata, hmetadata, rfl⟩ := h
  exact
    { triggers := forall_of_defaulted_list hfs htriggers fun _ _ _ => Trigger.plain_of_timeless
      conditions := forall_of_defaulted_list hfs hconditions fun _ _ _ => Condition.plain_of_timeless
      actions := forall_of_defaulted_list hfs hactions fun _ _ _ => Action.plain_of_timeless
      lastExecuted := RuleMetadata.rereads.plain_defaulted hfs (by simp [RuleMetadata.plain]) hmetadata }

/-- A definition is admitted if it can be read of a value of JSON. -/
def IsAdmitted (d : RuleDefinition) : Prop := ∃ ids v, v.isJson = true ∧ read ids v = .valid d

/-- The parts of a definition that is admitted are read again from JSON. -/
theorem IsAdmitted.reread (h : d.IsAdmitted) : d.IsReread .json := by
  obtain ⟨ids, v, hv, hread⟩ := h
  obtain ⟨fs, rfl, hfields⟩ := model_eq_valid.mp hread
  exact reread_of_fields hfields .json fun _ => plain_of_timeless (Value.timeless_of_json _ hv) hfields

/-- The time of the last execution can be told if metadata are read again. -/
theorem IsReread.told (h : d.IsReread .json) : ∀ m ∈ d.metadata.lastExecuted, m.IsTold :=
  RuleMetadata.rereads.plain _ _ (Value.timeless_written _) h.metadata

end RuleDefinition

namespace RuleDraft

variable {ids : FreshIds} {fs : Fields} {v : Value} {d : RuleDraft}

/-- A draft is admitted if it can be read of a value of JSON. -/
def IsAdmitted (d : RuleDraft) : Prop := ∃ ids v, v.isJson = true ∧ read ids v = .valid d

/-- The parts of a draft are those of a definition, and the tenant. -/
theorem fields_eq_valid (h : readFields ids fs = .valid d) :
    RuleDefinition.readFields ids fs = .valid d.toRuleDefinition ∧
      textOfLength 1 (some 64) (.text d.tenantId) = .valid d.tenantId := by
  simp only [readFields, seq_eq_valid, map_eq_valid] at h
  obtain ⟨_, ⟨definition, hdefinition, rfl⟩, tenantId, htenant, rfl⟩ := h
  exact ⟨hdefinition, (rereads_text_of_length 1 (some 64)).required htenant .plain⟩

/-- The parts of a draft that is admitted are read again from JSON. -/
theorem IsAdmitted.reread (h : d.IsAdmitted) :
    d.IsReread .json ∧ textOfLength 1 (some 64) (.text d.tenantId) = .valid d.tenantId := by
  obtain ⟨ids, v, hv, hread⟩ := h
  obtain ⟨fs, rfl, hfields⟩ := model_eq_valid.mp hread
  obtain ⟨hdefinition, htenant⟩ := fields_eq_valid hfields
  have htimeless : haveNoTime fs = true := Value.timeless_of_json _ hv
  exact ⟨RuleDefinition.reread_of_fields hdefinition .json fun _ =>
    RuleDefinition.plain_of_timeless htimeless hdefinition, htenant⟩

/-- A draft is read of fields that hold its parts in a form. -/
theorem read_fields_valid {form : PayloadForm} (hd : d.IsReread form)
    (htenant : textOfLength 1 (some 64) (.text d.tenantId) = .valid d.tenantId)
    (hfields : ∀ f ∈ d.toFields, Fields.get? fs f.1 = some (form.give f.2)) : readFields ids fs = .valid d := by
  simp only [RuleDraft.toFields, RuleDefinition.toFields, List.cons_append, List.nil_append, List.forall_mem_cons,
    List.not_mem_nil, false_implies, implies_true, and_true] at hfields
  obtain ⟨hname, hdescription, hpriority, hactive, htriggers, hconditions, hactions, hsettings, hmetadata,
    htenantId⟩ := hfields
  have hint : Schema.int (form.give (.int d.priority)) = .valid d.priority := rereads_int (.int _) _ rfl form
  have hbool : Schema.bool (form.give (.bool d.isActive)) = .valid d.isActive := rereads_bool (.bool _) _ rfl form
  rw [PayloadForm.give_text] at htenantId
  exact seq_valid (map_valid (seq_valid (seq_valid (seq_valid (seq_valid (seq_valid (seq_valid (seq_valid (seq_valid
    (map_valid (required_valid hname hd.name)) (defaulted_valid hdescription hd.description))
    (defaulted_valid hpriority hint)) (defaulted_valid hactive hbool)) (defaulted_valid htriggers (hd.triggers _)))
    (defaulted_valid hconditions (hd.conditions _))) (defaulted_valid hactions (hd.actions _)))
    (defaulted_valid hsettings hd.settings)) (defaulted_valid hmetadata hd.metadata)))
    (required_valid htenantId htenant)

end RuleDraft

end Rulebook
