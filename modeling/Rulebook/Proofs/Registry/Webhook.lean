import Rulebook.Proofs.EventType
import Rulebook.Proofs.Keys
import Rulebook.Proofs.Registry.History
import Rulebook.Registry.Match

/-!
# Which rules a call of a webhook means

A call of a webhook means a rule if the first of its triggers in use for that webhook admits the headers
(`Rule.IsCalledThrough`): the trigger asks for no credentials, or it has them and the headers carry just what
they demand, the last header of a name counting, whatever its case (`Trigger.authorizes_iff`). The webhook index
singles out candidates, but what it leaves out has no trigger for the webhook: the rules that are meant are
those that looking at every rule would find (`Registry.for_webhook_rules`).
-/

namespace Rulebook

namespace Text

/-- A text in lower case stays as it is. -/
theorem lower_lower (t : String) : lower (lower t) = lower t := by
  have hsettled : lowerChars [] (lower t).toList = (lower t).toList := by
    rw [lower, String.toList_ofList]
    exact lower_chars_of_settled (lower_chars_settled _ _) []
  rw [lower, hsettled, String.ofList_toList]

end Text

/-! ### Headers -/

namespace Registry

/-- Headers carry a value under a name: it is that of the last header whose name is the same but for case. -/
def Carries (headers : List (String × String)) (name value : String) : Prop :=
  ∃ before k after, headers = before ++ (k, value) :: after ∧ Text.lower k = Text.lower name ∧
    ∀ h ∈ after, Text.lower h.1 ≠ Text.lower name

variable {headers : List (String × String)} {name value : String}

/-- The last header stands under its name in lower case. -/
theorem lookup_lower_concat (headers : List (String × String)) (k v key : String) :
    (lowerHeaders (headers ++ [(k, v)])).lookup key =
      if key = Text.lower k then some v else (lowerHeaders headers).lookup key := by
  have hlast : lowerHeaders (headers ++ [(k, v)]) =
      if (lowerHeaders headers).any (·.1 == Text.lower k) then
        (lowerHeaders headers).map fun h => if h.1 == Text.lower k then (Text.lower k, v) else h
      else lowerHeaders headers ++ [(Text.lower k, v)] := by
    unfold lowerHeaders
    rw [List.foldl_append]
    rfl
  rw [hlast, lookup_set]
  simp only [beq_iff_eq]

/-- What stands under a name in lower case is what the headers carry under it. -/
theorem lookup_lower_iff :
    (lowerHeaders headers).lookup (Text.lower name) = some value ↔ Carries headers name value := by
  induction headers using List.reverseRecOn with
  | nil =>
      refine iff_of_false nofun ?_
      rintro ⟨before, k, after, heq, _⟩
      cases before <;> cases heq
  | append_singleton headers h ih =>
      obtain ⟨k, v⟩ := h
      rw [lookup_lower_concat]
      by_cases hname : Text.lower name = Text.lower k
      · rw [if_pos hname, Option.some.injEq]
        constructor
        · rintro rfl
          exact ⟨headers, k, [], rfl, hname.symm, nofun⟩
        · rintro ⟨before, l, after, heq, _, hafter⟩
          obtain rfl | ⟨after, last, rfl⟩ := List.eq_nil_or_concat after
          · obtain ⟨_, hlast⟩ := List.append_inj' heq rfl
            exact congrArg (·.2) (List.singleton_inj.mp hlast)
          · rw [List.concat_eq_append] at heq hafter
            rw [← List.cons_append, ← List.append_assoc] at heq
            obtain ⟨_, hlast⟩ := List.append_inj' heq rfl
            obtain rfl := List.singleton_inj.mp hlast
            exact absurd hname.symm (hafter _ (List.mem_append_right _ (List.mem_singleton_self _)))
      · rw [if_neg hname, ih]
        constructor
        · rintro ⟨before, l, after, rfl, hl, hafter⟩
          refine ⟨before, l, after ++ [(k, v)], by simp, hl, fun h hh => ?_⟩
          obtain hh | hh := List.mem_append.mp hh
          · exact hafter h hh
          · rw [List.mem_singleton.mp hh]
            exact Ne.symm hname
        · rintro ⟨before, l, after, heq, hl, hafter⟩
          obtain rfl | ⟨after, last, rfl⟩ := List.eq_nil_or_concat after
          · obtain ⟨_, hlast⟩ := List.append_inj' heq rfl
            obtain ⟨rfl, _⟩ := Prod.mk.inj (List.singleton_inj.mp hlast)
            exact absurd hl.symm hname
          · rw [List.concat_eq_append] at heq hafter
            rw [← List.cons_append, ← List.append_assoc] at heq
            obtain ⟨rfl, _⟩ := List.append_inj' heq rfl
            exact ⟨before, l, after, rfl, hl, fun h hh => hafter h (List.mem_append_left _ hh)⟩

/-- The names of headers in lower case are in lower case. -/
theorem lower_of_mem_lower {h : String × String} (hh : h ∈ lowerHeaders headers) : Text.lower h.1 = h.1 := by
  induction headers using List.reverseRecOn generalizing h with
  | nil => cases hh
  | append_singleton headers header ih =>
      obtain ⟨k, v⟩ := header
      unfold lowerHeaders at hh
      rw [List.foldl_append] at hh
      change h ∈ (if (lowerHeaders headers).any (·.1 == Text.lower k) then _ else _) at hh
      split at hh
      · obtain ⟨g, hg, rfl⟩ := List.mem_map.mp hh
        split
        next => exact Text.lower_lower k
        next => exact ih hg
      · obtain hh | hh := List.mem_append.mp hh
        · exact ih hh
        · rw [List.mem_singleton.mp hh]
          exact Text.lower_lower k

/-- Headers that are carried are kept exactly if their names may be. -/
theorem kept_iff (hcarries : Carries headers name value) :
    (∃ h ∈ safeHeaders (lowerHeaders headers), Text.lower h.1 = Text.lower name) ↔
      Text.lower name ∉ secretHeaders := by
  constructor
  · rintro ⟨h, hh, hname⟩
    obtain ⟨hmem, hsafe⟩ := List.mem_filter.mp hh
    rw [← hname, lower_of_mem_lower hmem]
    simpa using hsafe
  · intro hsafe
    obtain ⟨before, after, heq, _⟩ := List.lookup_eq_some_iff.mp (lookup_lower_iff.mpr hcarries)
    refine ⟨(Text.lower name, value), List.mem_filter.mpr ⟨?_, by simpa using hsafe⟩, Text.lower_lower name⟩
    exact heq ▸ List.mem_append_right _ List.mem_cons_self

end Registry

/-! ### Credentials -/

namespace Authentication

variable {a : Authentication} {name value : String}

/-- There is a credential of a name, and it is not empty. -/
def Has (a : Authentication) (name value : String) : Prop := a.credentials.lookup name = some value ∧ value ≠ ""

/-- What credentials demand of a request, if they are complete: a header and its value. -/
inductive Demands (a : Authentication) : String → String → Prop where
  /-- The token, if there is one. -/
  | bearer {token : String} : a.scheme = .bearer → a.Has "token" token →
      a.Demands "Authorization" ("Bearer " ++ token)
  /-- User name and password, if there is a user name; an absent password is empty. -/
  | basic {user : String} : a.scheme = .basic → a.Has "username" user →
      a.Demands "Authorization"
        ("Basic " ++ base64 (user ++ ":" ++ (a.credentials.lookup "password").getD "").toUTF8.toList)
  /-- The key, if there is one, in the header that is given. -/
  | keyIn {key header : String} : a.scheme = .apiKey → a.Has "key" key → a.Has "header" header → a.Demands header key
  /-- The key, if there is one, in the usual header where none is given. -/
  | key {key : String} : a.scheme = .apiKey → a.Has "key" key → (∀ header, ¬a.Has "header" header) →
      a.Demands "X-API-Key" key

/-- A credential is found if it is there and not empty. -/
theorem credential_eq_some_iff : a.credential? name = some value ↔ a.Has name value := by
  unfold credential? Has
  cases a.credentials.lookup name with
  | none => simp
  | some v =>
      by_cases hv : v = ""
      · simp [hv]
      · simp only [String.isEmpty_iff, hv, if_false, Option.some.injEq]
        exact ⟨fun h => ⟨h, h ▸ hv⟩, And.left⟩

/-- Credentials make the header that they demand, and none if they are incomplete. -/
theorem header_eq_ok_iff : a.header = .ok (name, value) ↔ a.Demands name value := by
  constructor
  · intro h
    unfold header at h
    split at h
    next hscheme =>
      split at h
      next token htoken =>
        cases h
        exact .bearer hscheme (credential_eq_some_iff.mp htoken)
      next => cases h
    next hscheme =>
      split at h
      next user huser =>
        cases h
        exact .basic hscheme (credential_eq_some_iff.mp huser)
      next => cases h
    next hscheme =>
      split at h
      next key hkey =>
        cases h
        rw [keyHeader]
        cases hheader : a.credential? "header" with
        | some header =>
            exact .keyIn hscheme (credential_eq_some_iff.mp hkey) (credential_eq_some_iff.mp hheader)
        | none =>
            refine .key hscheme (credential_eq_some_iff.mp hkey) fun header hhas => ?_
            cases hheader.symm.trans (credential_eq_some_iff.mpr hhas)
      next => cases h
  · intro h
    cases h with
    | bearer hscheme htoken => rw [header, hscheme, credential_eq_some_iff.mpr htoken]
    | basic hscheme huser => rw [header, hscheme, credential_eq_some_iff.mpr huser]
    | keyIn hscheme hkey hheader =>
        rw [header, hscheme, credential_eq_some_iff.mpr hkey, keyHeader, credential_eq_some_iff.mpr hheader]
        rfl
    | key hscheme hkey hnone =>
        have habsent : a.credential? "header" = none := by
          rw [Option.eq_none_iff_forall_ne_some]
          exact fun header hheader => hnone header (credential_eq_some_iff.mp hheader)
        rw [header, hscheme, credential_eq_some_iff.mpr hkey, keyHeader, habsent]
        rfl

/-- Credentials demand a value that is not empty. -/
theorem Demands.value_ne (h : a.Demands name value) : value ≠ "" := by
  cases h with
  | bearer => exact fun h => by simpa using congrArg String.toList h
  | basic => exact fun h => by simpa using congrArg String.toList h
  | keyIn _ hkey => exact hkey.2
  | key _ hkey => exact hkey.2

end Authentication

/-! ### Triggers and rules -/

namespace Trigger

variable {t : Trigger} {webhookId : String} {headers : List (String × String)}

/-- A trigger is for calls of a webhook: under the identifier that is given, or else under its own. -/
def IsFor (t : Trigger) (webhookId : String) : Prop :=
  ∃ w, t.source = .webhook w ∧ (w.webhookId = some webhookId ∧ webhookId ≠ "" ∨
    (w.webhookId = none ∨ w.webhookId = some "") ∧ t.id = webhookId)

/-- A trigger compares a header with its credentials. -/
def Compares (t : Trigger) (name value : String) : Prop :=
  ∃ w a, t.source = .webhook w ∧ w.authentication = some a ∧ a.Demands name value

/-- A trigger admits headers: it asks for no credentials, or the headers carry what they demand. -/
def Admits (t : Trigger) (headers : List (String × String)) : Prop :=
  ∃ w, t.source = .webhook w ∧ (w.authentication = none ∨
    ∃ name value, t.Compares name value ∧ Registry.Carries headers name value)

/-- The identifier under which a trigger is called is that of the webhook that it is for. -/
theorem webhook_id_eq_some_iff : t.webhookId? = some webhookId ↔ t.IsFor webhookId := by
  unfold webhookId? IsFor
  cases hsource : t.source with
  | webhook w =>
      cases hid : w.webhookId with
      | none => simp [hid]
      | some id =>
          by_cases hempty : id = ""
          · simp [hid, hempty]
          · simp only [String.isEmpty_iff, hempty, if_false, Option.some.injEq, TriggerSource.webhook.injEq,
              exists_eq_left', hid, reduceCtorEq, false_and, or_false]
            exact ⟨fun h => ⟨h, h ▸ hempty⟩, And.left⟩
  | _ => simp

/-- Headers in lower case are accepted exactly if the trigger admits them. -/
theorem authorizes_iff : t.authorizes (Registry.lowerHeaders headers) = true ↔ t.Admits headers := by
  unfold authorizes Admits Compares
  cases hsource : t.source with
  | webhook w =>
      cases hasked : w.authentication with
      | none => simp [Authentication.headers, hasked]
      | some a =>
          simp only [Authentication.headers, TriggerSource.webhook.injEq, exists_eq_left', hasked, reduceCtorEq,
            false_or, Option.some.injEq, exists_and_left]
          cases hheader : a.header with
          | error f =>
              refine iff_of_false nofun ?_
              rintro ⟨name, value, hdemands, _⟩
              cases hheader.symm.trans (Authentication.header_eq_ok_iff.mpr hdemands)
          | ok demanded =>
              obtain ⟨name, value⟩ := demanded
              have hdemands := Authentication.header_eq_ok_iff.mp hheader
              simp only [Except.map, List.all_cons, List.all_nil, Bool.and_true, beq_iff_eq]
              constructor
              · intro heq
                refine ⟨name, value, hdemands, Registry.lookup_lower_iff.mp ?_⟩
                -- an absent header counts as empty, and an empty value is never demanded
                cases hfound : (Registry.lowerHeaders headers).lookup (Text.lower name) with
                | none =>
                    rw [hfound] at heq
                    exact absurd heq.symm hdemands.value_ne
                | some v =>
                    rw [hfound] at heq
                    exact congrArg some heq
              · rintro ⟨name', value', hdemands', hcarries⟩
                have hsame := hheader.symm.trans (Authentication.header_eq_ok_iff.mpr hdemands')
                obtain ⟨rfl, rfl⟩ := Prod.mk.inj (Except.ok.inj hsame)
                rw [Registry.lookup_lower_iff.mpr hcarries]
                rfl
  | _ => simp

end Trigger

namespace Rule

variable {r : Rule} {t : Trigger} {webhookId : String} {headers : List (String × String)}

/-- A call of a webhook means a rule through a trigger: it is the first one in use that is for the webhook, and it
admits the headers. -/
def IsCalledThrough (r : Rule) (t : Trigger) (webhookId : String) (headers : List (String × String)) : Prop :=
  (∃ before after, r.enabledTriggers = before ++ t :: after ∧ ∀ u ∈ before, ¬u.IsFor webhookId) ∧
    t.IsFor webhookId ∧ t.Admits headers

/-- Whether a call of a webhook is found to mean a rule. -/
def answers (r : Rule) (webhookId : String) (headers : List (String × String)) : Bool :=
  match r.enabledTriggers.find? fun t => t.webhookId? == some webhookId with
  | some t => t.authorizes headers
  | none => false

/-- A call is found to mean a rule exactly if it does through one of its triggers. -/
theorem answers_iff :
    r.answers webhookId (Registry.lowerHeaders headers) = true ↔ ∃ t, r.IsCalledThrough t webhookId headers := by
  unfold answers IsCalledThrough
  cases hfound : r.enabledTriggers.find? fun t => t.webhookId? == some webhookId with
  | none =>
      refine iff_of_false nofun ?_
      rintro ⟨t, ⟨before, after, heq, _⟩, hfor, _⟩
      have hmem : t ∈ r.enabledTriggers := heq ▸ List.mem_append_right _ List.mem_cons_self
      have hnot := List.find?_eq_none.mp hfound t hmem
      exact hnot (beq_iff_eq.mpr (Trigger.webhook_id_eq_some_iff.mpr hfor))
  | some t =>
      obtain ⟨hid, before, after, heq, hbefore⟩ := List.find?_eq_some_iff_append.mp hfound
      have hfor := Trigger.webhook_id_eq_some_iff.mp (beq_iff_eq.mp hid)
      have hnone : ∀ u ∈ before, ¬u.IsFor webhookId := fun u hu h => by
        simpa [Trigger.webhook_id_eq_some_iff.mpr h] using hbefore u hu
      rw [Trigger.authorizes_iff]
      constructor
      · exact fun hadmits => ⟨t, ⟨before, after, heq, hnone⟩, hfor, hadmits⟩
      · rintro ⟨u, ⟨before', after', heq', hnone'⟩, hfor', hadmits⟩
        -- only one trigger is the first for the webhook
        have hfirst : r.enabledTriggers.find? (fun t => t.webhookId? == some webhookId) = some u := by
          refine List.find?_eq_some_iff_append.mpr
            ⟨beq_iff_eq.mpr (Trigger.webhook_id_eq_some_iff.mpr hfor'), before', after', heq', fun v hv => ?_⟩
          have hne := mt Trigger.webhook_id_eq_some_iff.mp (hnone' v hv)
          simpa using hne
        obtain rfl := Option.some.inj (hfound.symm.trans hfirst)
        exact hadmits

end Rule

/-! ### The index and a look at every rule -/

namespace Registry

variable {acts : List Act} {r : Rule} {webhookId : String}

/-- The rules that looking at every rule finds are those that a call means. -/
theorem called_by_rules (webhookId : String) (headers : List (String × String)) (rules : List Rule) :
    (calledBy webhookId headers rules).2 = rules.filter (·.answers webhookId headers) := by
  induction rules with
  | nil => rfl
  | cons r rules ih =>
      rw [calledBy, List.filter_cons, ← ih, Rule.answers]
      cases r.enabledTriggers.find? fun t => t.webhookId? == some webhookId with
      | none => rfl
      | some t =>
          dsimp only
          split <;> rfl

/-- The rules that a call of a webhook means are those that looking at every rule finds. -/
theorem for_webhook_rules (acts : List Act) (webhookId : String) (headers : List (String × String)) :
    ((after acts).forWebhook webhookId headers).2 = (after acts).rules.filter (·.answers webhookId headers) := by
  unfold forWebhook
  rw [called_by_rules, List.filter_filter]
  refine List.filter_congr fun r hr => ?_
  -- a rule that answers has a trigger for the webhook, so the index lists it
  refine Bool.and_eq_left_iff_imp.mpr fun hanswers => ?_
  unfold Rule.answers at hanswers
  split at hanswers
  next t ht =>
    obtain ⟨hid, _⟩ := List.find?_eq_some_iff_append.mp ht
    have hserves : r.Serves webhookId := ⟨t, List.mem_of_find?_eq_some ht, beq_iff_eq.mp hid⟩
    exact List.contains_iff_mem.mpr ((after_tidy acts).webhooks.mem_get_iff.mpr (listed_of_serves hr hserves))
  next => cases hanswers

end Registry

end Rulebook
