import Rollout.Deployment.Record
import Rollout.Instance
import Rollout.Proofs.JsonText

/-!
# Records read back

The stored text of a deployment or of an instance holds just that, whatever its fields are. A
reader looks fields up by name, so it is enough that the names of a record differ and that the
reader of each field undoes what is written for it. Their order does not matter, nor what else
stands among them.
-/

namespace Rollout

/-- The first entry with a key is the one that is found. -/
theorem lookup_cons_eq_ite {α : Type} (entry : String × α) (rest : List (String × α))
    (key : String) :
    (entry :: rest).lookup key = if key = entry.1 then some entry.2 else rest.lookup key := by
  rw [List.lookup_cons]
  by_cases h : key = entry.1
  · rw [if_pos h, beq_iff_eq.mpr h]
  · rw [if_neg h, beq_eq_false_iff_ne.mpr h]

/-! ## Fields -/

namespace Json

/-- A text is read back. -/
@[simp] theorem text?_text (s : String) : (text s).text? = some s :=
  rfl

/-- A number of 32 bits is read back. -/
@[simp] theorem count?_natural (n : UInt32) : (natural n.toNat).count? = some n := by
  simp only [natural, count?, dif_pos n.toNat_lt_size, UInt32.ofNatLT_toNat]

/-- A number of 64 bits is read back. -/
@[simp] theorem word?_natural (n : UInt64) : (natural n.toNat).word? = some n := by
  simp only [natural, word?, dif_pos n.toNat_lt_size, UInt64.ofNatLT_toNat]

/-- A value that may be absent is read back, provided that no value is written as null. -/
theorem nullable?_nullable {α : Type} {write : α → Json} {read : Json → Option α}
    (hread : ∀ a, read (write a) = some a) (hnull : ∀ a, write a ≠ .null) (value : Option α) :
    nullable? read (nullable write value) = some value := by
  cases value with
  | none => rfl
  | some a =>
    unfold nullable nullable?
    split
    · next heq => exact absurd heq (hnull a)
    · rw [hread, Option.map_some]

namespace Record

/-- The form in which a record with the given members is found again. -/
def written (members : List (String × Json)) : Record :=
  .named (members.map fun m => (some m.1, m.2))

/-- An object is read as the record with its members. -/
theorem ofJson?_record (size : Nat) (members : List (String × Json)) :
    ofJson? size (Json.record members) = some (written members) := by
  simp [ofJson?, Json.record, written]

variable {fields members : List (String × Json)} {required optional leftOut : List String}
  {name : String}

/-- What a record says about a field depends on the members with its name. -/
theorem field?_written (members : List (String × Json)) (position : Nat) (name : String) :
    (written members).field? position name =
      match members.filter (·.1 = name) with
      | [] => some .unnamed
      | [member] => some (.given member.2)
      | _ => none := by
  have hfilter : (members.map fun m => (some m.1, m.2)).filter (·.1 == some name) =
      (members.filter (·.1 = name)).map fun m => (some m.1, m.2) := by
    rw [List.filter_map]
    congr 1
  rw [written, field?, hfilter]
  generalize List.filter (fun m => decide (m.1 = name)) members = named
  rcases named with _ | ⟨member, _ | ⟨other, rest⟩⟩ <;> rfl

/-- Among fields with different names one has a given name. -/
theorem filter_eq_lookup (hnames : (fields.map Prod.fst).Nodup) (name : String) :
    fields.filter (·.1 = name) = ((fields.lookup name).map fun value => (name, value)).toList := by
  induction fields with
  | nil => rfl
  | cons field fields ih =>
    obtain ⟨hfield, hnames⟩ := List.nodup_cons.mp hnames
    by_cases hname : field.1 = name
    · subst hname
      have hnone : fields.filter (·.1 = field.1) = [] := by
        refine List.filter_eq_nil_iff.mpr fun other hother heq => hfield ?_
        exact of_decide_eq_true heq ▸ List.mem_map_of_mem hother
      rw [List.filter_cons_of_pos (by simp), hnone, lookup_cons_eq_ite, if_pos rfl]
      rfl
    · rw [List.filter_cons_of_neg (by simpa using hname), ih hnames, lookup_cons_eq_ite,
        if_neg (Ne.symm hname)]

/-- Fields whose names are those that a record must have and those that it may have, each of
them once. -/
structure Named (required optional : List String) (fields : List (String × Json)) : Prop where
  /-- No name is given twice. -/
  nodup : (fields.map Prod.fst).Nodup
  /-- The names are those of the format. -/
  perm : (fields.map Prod.fst).Perm (required ++ optional)

/-- Members that hold the given fields, except those that are left out, in any order and among
any others under further names. -/
def Rearranged (fields : List (String × Json)) (leftOut : List String)
    (members : List (String × Json)) : Prop :=
  ∃ further, members.Perm (fields.filter (·.1 ∉ leftOut) ++ further) ∧
    ∀ m ∈ further, m.1 ∉ fields.map Prod.fst

/-- Fields are a rearrangement of themselves. -/
theorem rearranged_self (fields : List (String × Json)) : Rearranged fields [] fields :=
  ⟨[], by simp, by simp⟩

namespace Rearranged

/-- Under the name of a field stands its value and nothing else. -/
theorem filter_eq (h : Rearranged fields leftOut members)
    (hnames : (fields.map Prod.fst).Nodup) (hknown : name ∈ fields.map Prod.fst) :
    members.filter (·.1 = name) =
      if name ∈ leftOut then [] else
        ((fields.lookup name).map fun value => (name, value)).toList := by
  obtain ⟨further, hperm, hfurther⟩ := h
  have hnone : further.filter (·.1 = name) = [] := by
    refine List.filter_eq_nil_iff.mpr fun m hm heq => hfurther m hm ?_
    exact of_decide_eq_true heq ▸ hknown
  -- Among the members with this name are no further ones, and of the fields at most one.
  have hnamed := hperm.filter (·.1 = name)
  rw [List.filter_append, hnone, List.append_nil, List.filter_filter] at hnamed
  by_cases hleft : name ∈ leftOut
  · have hgone : fields.filter (fun m => decide (m.1 = name) && decide (m.1 ∉ leftOut)) = [] := by
      refine List.filter_eq_nil_iff.mpr fun m _ heq => ?_
      simp only [Bool.and_eq_true, decide_eq_true_eq] at heq
      exact heq.2 (heq.1 ▸ hleft)
    rw [if_pos hleft]
    rw [hgone] at hnamed
    exact hnamed.eq_nil
  · have hkept : fields.filter (fun m => decide (m.1 = name) && decide (m.1 ∉ leftOut)) =
        fields.filter (·.1 = name) := by
      refine List.filter_congr fun m _ => ?_
      by_cases heq : m.1 = name
      · simp [heq, hleft]
      · simp [heq]
    rw [hkept, filter_eq_lookup hnames] at hnamed
    rw [if_neg hleft]
    cases hvalue : fields.lookup name with
    | none => rw [hvalue] at hnamed; exact hnamed.eq_nil
    | some value => rw [hvalue] at hnamed; exact List.perm_singleton.mp hnamed

/-- A field that has to be there is looked up by its name. -/
theorem required_eq {α : Type} (h : Rearranged fields leftOut members)
    (hnamed : Named required optional fields) (hleft : ∀ name ∈ required, name ∉ leftOut)
    (hname : name ∈ required) (position : Nat) (read : Json → Option α) :
    (written members).required position name read = (fields.lookup name).bind read := by
  have hknown := hnamed.perm.mem_iff.mpr (List.mem_append_left optional hname)
  rw [Record.required, field?_written, h.filter_eq hnamed.nodup hknown, if_neg (hleft name hname)]
  cases fields.lookup name <;> rfl

/-- A field that may be left out is looked up by its name, and is null where it is left out. -/
theorem optional_eq {α : Type} (h : Rearranged fields leftOut members)
    (hnamed : Named required optional fields) (hname : name ∈ optional) (position : Nat)
    (read : Json → Option α) :
    (written members).optional position name read =
      if name ∈ leftOut then some none else
        (fields.lookup name).elim (some none) (nullable? read) := by
  have hknown := hnamed.perm.mem_iff.mpr (List.mem_append_right required hname)
  rw [Record.optional, field?_written, h.filter_eq hnamed.nodup hknown]
  split_ifs
  · rfl
  · cases fields.lookup name <;> rfl

end Rearranged

/-- The reader of a record goes on with each value it has read. -/
theorem some_bind {α β : Type} (a : α) (rest : α → Option β) : (some a >>= rest) = rest a :=
  rfl

/-- A field that is left out is read as none, and any other as its value. -/
theorem some_ite {α : Type} (p : Prop) [Decidable p] (value : Option α) :
    (if p then some none else some value) = some (if p then none else value) :=
  (apply_ite some p none value).symm

end Record

end Json

/-! ## Deployments -/

namespace Phase

/-- A phase is read back. -/
@[simp] theorem ofJson?_toJson (phase : Phase) : ofJson? phase.toJson = some phase := by
  cases phase <;> decide

end Phase

namespace StatusValue

/-- A status is read back. -/
@[simp] theorem ofJson?_toJson (value : StatusValue) : ofJson? value.toJson = some value := by
  cases value <;> decide

end StatusValue

namespace StatusReason

/-- The reason of a status is read back. -/
@[simp] theorem ofJson?_toJson (reason : StatusReason) : ofJson? reason.toJson = some reason := by
  cases reason <;> decide

end StatusReason

namespace Canary

/-- The fields of a stored canary gate. -/
def fields (c : Canary) : List (String × Json) := [
  ("total_instances", .natural c.totalInstances.toNat),
  ("current_instance_target", .natural c.currentInstanceTarget.toNat)]

/-- The names of the fields of a canary gate. -/
def required : List String := ["total_instances", "current_instance_target"]

/-- The fields of a gate have the names that gates demand. -/
theorem named_fields (c : Canary) : Json.Record.Named required [] c.fields :=
  ⟨by simp [fields], .refl _⟩

/-- A canary gate is read from its fields in any order. -/
theorem ofJson?_of_rearranged {c : Canary} {leftOut : List String}
    {members : List (String × Json)} (h : Json.Record.Rearranged c.fields leftOut members)
    (hleft : ∀ name ∈ required, name ∉ leftOut) : ofJson? (.record members) = some c := by
  rw [ofJson?, Json.Record.ofJson?_record]
  simp (disch := decide) only [Json.Record.some_bind, h.required_eq c.named_fields hleft]
  simp only [fields, lookup_cons_eq_ite, String.reduceEq, if_true, if_false, Option.bind_some,
    Json.count?_natural, Json.Record.some_bind, Option.pure_def]

/-- A gate is read back. -/
theorem ofJson?_toJson (c : Canary) : ofJson? c.toJson = some c :=
  ofJson?_of_rearranged (Json.Record.rearranged_self c.fields) (by simp)

end Canary

namespace Request

/-- The fields of a stored request. -/
def fields (q : Request) : List (String × Json) := [
  ("id", .text q.id),
  ("app_id", .text q.appId),
  ("version", .text q.version),
  ("previous_version", .text q.previousVersion),
  ("original_instances", .natural q.originalInstances.toNat),
  ("desired_web_instances", .natural q.desiredWebInstances.toNat),
  ("canary_total_instances", .nullable (fun n => .natural n.toNat) q.canaryTotalInstances)]

/-- The names of the fields that a request must have. -/
def required : List String :=
  ["id", "app_id", "version", "previous_version", "original_instances", "desired_web_instances"]

/-- The name of the field that a request may leave out. -/
def optional : List String := ["canary_total_instances"]

/-- A request without some of the fields that it may leave out. -/
def without (q : Request) (leftOut : List String) : Request :=
  { q with canaryTotalInstances :=
      if "canary_total_instances" ∈ leftOut then none else q.canaryTotalInstances }

/-- The fields of a request have the names that requests demand. -/
theorem named_fields (q : Request) : Json.Record.Named required optional q.fields :=
  ⟨by simp [fields], .refl _⟩

/-- A request is read from its fields in any order, without those that are left out. -/
theorem ofJson?_of_rearranged {q : Request} {leftOut : List String}
    {members : List (String × Json)} (h : Json.Record.Rearranged q.fields leftOut members)
    (hleft : ∀ name ∈ required, name ∉ leftOut) :
    ofJson? (.record members) = some (q.without leftOut) := by
  have htotal : Json.nullable? Json.count? (Json.nullable (fun n => .natural n.toNat)
      q.canaryTotalInstances) = some q.canaryTotalInstances :=
    Json.nullable?_nullable Json.count?_natural (by simp [Json.natural]) _
  rw [ofJson?, Json.Record.ofJson?_record]
  simp (disch := decide) only [Json.Record.some_bind, h.required_eq q.named_fields hleft,
    h.optional_eq q.named_fields]
  simp only [fields, lookup_cons_eq_ite, String.reduceEq, if_true, if_false, Option.bind_some,
    Option.elim_some, Json.text?_text, Json.count?_natural, htotal, Json.Record.some_ite,
    Json.Record.some_bind, Option.pure_def, without]

end Request

namespace Deployment

/-- The fields of a stored deployment, in which the canary gate has a given form. -/
def fields (d : Deployment) (gate : Json) : List (String × Json) := [
  ("id", .text d.id),
  ("app_id", .text d.appId),
  ("version", .text d.version),
  ("previous_version", .text d.previousVersion),
  ("original_instances", .natural d.originalInstances.toNat),
  ("desired_web_instances", .natural d.desiredWebInstances.toNat),
  ("canary", gate),
  ("deploying_instances", .natural d.deployingInstances.toNat),
  ("stable_instances", .natural d.stableInstances.toNat),
  ("phase", d.phase.toJson),
  ("status_value", d.statusValue.toJson),
  ("status_reason", d.statusReason.toJson),
  ("last_healthy_at", .nullable (fun t => .natural t.toNat) d.lastHealthyAt),
  ("error", .nullable .text d.error),
  ("revision", .natural d.revision.toNat),
  ("created_at", .natural d.createdAt.toNat),
  ("updated_at", .natural d.updatedAt.toNat)]

/-- The names of the fields that a deployment must have. -/
def required : List String :=
  ["id", "app_id", "version", "previous_version", "original_instances", "desired_web_instances",
    "deploying_instances", "stable_instances", "phase", "status_value", "status_reason",
    "revision", "created_at", "updated_at"]

/-- The names of the fields that a deployment may leave out. -/
def optional : List String := ["canary", "last_healthy_at", "error"]

/-- A deployment without some of the fields that it may leave out. -/
def without (d : Deployment) (leftOut : List String) : Deployment :=
  { d with
    canary := if "canary" ∈ leftOut then none else d.canary
    lastHealthyAt := if "last_healthy_at" ∈ leftOut then none else d.lastHealthyAt
    error := if "error" ∈ leftOut then none else d.error }

/-- The fields of a deployment have the names that deployments demand. -/
theorem named_fields (d : Deployment) (gate : Json) :
    Json.Record.Named required optional (d.fields gate) := by
  have hperm : ["id", "app_id", "version", "previous_version", "original_instances",
      "desired_web_instances", "canary", "deploying_instances", "stable_instances", "phase",
      "status_value", "status_reason", "last_healthy_at", "error", "revision", "created_at",
      "updated_at"].Perm (required ++ optional) := by decide
  exact ⟨by simp [fields], hperm⟩

/-- A deployment is read from its fields in any order, without those that are left out. -/
theorem ofJson?_of_rearranged {d : Deployment} {gate : Json} {leftOut : List String}
    {members : List (String × Json)} (hgate : Json.nullable? Canary.ofJson? gate = some d.canary)
    (h : Json.Record.Rearranged (d.fields gate) leftOut members)
    (hleft : ∀ name ∈ required, name ∉ leftOut) :
    ofJson? (.record members) = some (d.without leftOut) := by
  have htime : Json.nullable? Json.word? (Json.nullable (fun t => .natural t.toNat)
      d.lastHealthyAt) = some d.lastHealthyAt :=
    Json.nullable?_nullable Json.word?_natural (by simp [Json.natural]) _
  have herror : Json.nullable? Json.text? (Json.nullable .text d.error) = some d.error :=
    Json.nullable?_nullable Json.text?_text (by simp [Json.text]) _
  have hnamed := d.named_fields gate
  rw [ofJson?, Json.Record.ofJson?_record]
  simp (disch := decide) only [Json.Record.some_bind, h.required_eq hnamed hleft,
    h.optional_eq hnamed]
  simp only [fields, lookup_cons_eq_ite, String.reduceEq, if_true, if_false, Option.bind_some,
    Option.elim_some, Json.text?_text, Json.count?_natural, Json.word?_natural,
    Phase.ofJson?_toJson, StatusValue.ofJson?_toJson, StatusReason.ofJson?_toJson, hgate, htime,
    herror, Json.Record.some_ite, Json.Record.some_bind, Option.pure_def, without]

/-- A deployment is read back. -/
theorem ofJson?_toJson (d : Deployment) : ofJson? d.toJson = some d := by
  have hgate : Json.nullable? Canary.ofJson? (Json.nullable Canary.toJson d.canary) =
      some d.canary :=
    Json.nullable?_nullable Canary.ofJson?_toJson (by simp [Canary.toJson, Json.record]) _
  exact ofJson?_of_rearranged hgate (Json.Record.rearranged_self _) (by simp)

/-- The stored text of a deployment holds that deployment. -/
theorem ofText?_toText (d : Deployment) : ofText? d.toText = some d := by
  rw [ofText?, toText, Json.parse_compact, Option.bind_some, ofJson?_toJson]

end Deployment

/-! ## Instances -/

namespace InstanceStatus

/-- The status of an instance is read back. -/
@[simp] theorem ofJson?_toJson (status : InstanceStatus) : ofJson? status.toJson = some status := by
  cases status <;> decide

end InstanceStatus

namespace InstanceHealth

/-- The health of an instance is read back. -/
@[simp] theorem ofJson?_toJson (health : InstanceHealth) : ofJson? health.toJson = some health := by
  cases health <;> decide

end InstanceHealth

namespace Instance

/-- The fields of a stored instance. -/
def fields (i : Instance) : List (String × Json) := [
  ("app_id", .text i.appId),
  ("version", .text i.version),
  ("index", .natural i.index.toNat),
  ("status", i.status.toJson),
  ("health", i.health.toJson),
  ("started_at", .natural i.startedAt.toNat),
  ("updated_at", .natural i.updatedAt.toNat)]

/-- The names of the fields of an instance. -/
def required : List String :=
  ["app_id", "version", "index", "status", "health", "started_at", "updated_at"]

/-- The fields of an instance have the names that instances demand. -/
theorem named_fields (i : Instance) : Json.Record.Named required [] i.fields :=
  ⟨by simp [fields], .refl _⟩

/-- An instance is read from its fields in any order. -/
theorem ofJson?_of_rearranged {i : Instance} {leftOut : List String}
    {members : List (String × Json)} (h : Json.Record.Rearranged i.fields leftOut members)
    (hleft : ∀ name ∈ required, name ∉ leftOut) : ofJson? (.record members) = some i := by
  rw [ofJson?, Json.Record.ofJson?_record]
  simp (disch := decide) only [Json.Record.some_bind, h.required_eq i.named_fields hleft]
  simp only [fields, lookup_cons_eq_ite, String.reduceEq, if_true, if_false, Option.bind_some,
    Json.text?_text, Json.count?_natural, Json.word?_natural, InstanceStatus.ofJson?_toJson,
    InstanceHealth.ofJson?_toJson, Json.Record.some_bind, Option.pure_def]

/-- An instance is read back. -/
theorem ofJson?_toJson (i : Instance) : ofJson? i.toJson = some i :=
  ofJson?_of_rearranged (Json.Record.rearranged_self i.fields) (by simp)

/-- The stored text of an instance holds that instance. -/
@[simp] theorem ofText?_toText (i : Instance) : ofText? i.toText = some i := by
  rw [ofText?, toText, Json.parse_compact, Option.bind_some, ofJson?_toJson]

end Instance

end Rollout
