import Rollout.Proofs.Records

/-!
# Other texts of a record

A stored record has many texts. Its members may come in any order and among members that only
another version knows, blanks may stand between the tokens, and a field that is null may be left
out. All of them are read as that record. What a record must have cannot be left out, and nothing
that it knows may be given twice.
-/

namespace Rollout

namespace Json.Record

variable {required optional : List String} {members : List (String × Json)} {name : String}

/-- Members that lack a field which a record must have, or give a field of it twice. -/
inductive Faulty (required optional : List String) (members : List (String × Json)) : Prop where
  | incomplete {name : String} (hname : name ∈ required) (hnone : name ∉ members.map Prod.fst)
  | doubled {name : String} (hname : name ∈ required ++ optional)
    (htwice : 2 ≤ (members.map Prod.fst).count name)

/-- How often a name is given shows in what is found under it. -/
theorem count_of_field? {position : Nat} {field : Field}
    (h : (written members).field? position name = some field) :
    (members.map Prod.fst).count name = if field matches .given _ then 1 else 0 := by
  have hcount : (members.map Prod.fst).count name = (members.filter (·.1 = name)).length := by
    rw [List.count, List.countP_map, List.countP_eq_length_filter]
    congr 1
  rw [field?_written] at h
  rw [hcount]
  split at h
  · next hnamed =>
    obtain rfl := Option.some.inj h
    rw [hnamed]
    rfl
  · next hnamed =>
    obtain rfl := Option.some.inj h
    rw [hnamed]
    rfl
  · cases h

/-- A field that is found where it must be is given once. -/
theorem count_of_required {α : Type} {position : Nat} {read : Json → Option α} {a : α}
    (h : (written members).required position name read = some a) :
    (members.map Prod.fst).count name = 1 := by
  rw [Record.required] at h
  split at h
  · next hfield => exact count_of_field? hfield
  · cases h

/-- A field that may be left out and is not refused is given at most once. -/
theorem count_of_optional {α : Type} {position : Nat} {read : Json → Option α} {a : Option α}
    (h : (written members).optional position name read = some a) :
    (members.map Prod.fst).count name ≤ 1 := by
  rw [Record.optional] at h
  split at h
  · next hfield => exact (count_of_field? hfield).le
  · next hfield => exact (count_of_field? hfield).le.trans (Nat.zero_le 1)
  · cases h

/-- A member with the name of a field that was read is the one whose value was read. -/
theorem nullable?_of_optional {α : Type} {position : Nat} {read : Json → Option α}
    {a : Option α} {value : Json} (h : (written members).optional position name read = some a)
    (hmem : (name, value) ∈ members) : nullable? read value = some a := by
  have hfilter : (name, value) ∈ members.filter (·.1 = name) :=
    List.mem_filter.mpr ⟨hmem, decide_eq_true rfl⟩
  rw [Record.optional, field?_written] at h
  generalize List.filter (fun m => decide (m.1 = name)) members = named at h hfilter
  rcases named with _ | ⟨member, _ | ⟨other, rest⟩⟩
  · cases hfilter
  · obtain rfl := List.mem_singleton.mp hfilter
    exact h
  · cases h

/-- Members among which each field is given as often as it has to be. -/
structure Complete (required optional : List String) (members : List (String × Json)) : Prop where
  /-- A field that must be there is given once. -/
  required : ∀ name ∈ required, (members.map Prod.fst).count name = 1
  /-- One that may be left out is given at most once. -/
  optional : ∀ name ∈ optional, (members.map Prod.fst).count name ≤ 1

/-- Complete members have no fault. -/
theorem Complete.not_faulty (h : Complete required optional members) :
    ¬Faulty required optional members := by
  intro hfaulty
  cases hfaulty with
  | @incomplete name hname hnone =>
    have hone := h.required name hname
    rw [List.count_eq_zero.mpr hnone] at hone
    cases hone
  | @doubled name hname htwice =>
    rcases List.mem_append.mp hname with hname | hname
    · have hone := h.required name hname
      omega
    · have hone := h.optional name hname
      omega

/-- A reading gives something only if the members are complete. -/
def Demands (required optional : List String) (members : List (String × Json)) {α : Type}
    (result : Option α) : Prop :=
  ∀ a, result = some a → Complete required optional members

namespace Demands

private theorem done {α : Type} (a : α) : Demands [] [] members (some a) :=
  fun _ _ => ⟨by simp, by simp⟩

/-- A reading that begins with a field which must be there demands that field. -/
theorem required_bind {α β : Type} {position : Nat} {read : Json → Option α}
    {rest : α → Option β} (h : ∀ a, Demands required optional members (rest a)) :
    Demands (name :: required) optional members
      ((written members).required position name read >>= rest) := by
  intro b hb
  obtain ⟨a, ha, hb⟩ := Option.bind_eq_some_iff.mp hb
  obtain ⟨hrequired, hoptional⟩ := h a b hb
  exact ⟨List.forall_mem_cons.mpr ⟨count_of_required ha, hrequired⟩, hoptional⟩

/-- A reading that begins with a field which may be left out demands that it is not repeated. -/
theorem optional_bind {α β : Type} {position : Nat} {read : Json → Option α}
    {rest : Option α → Option β} (h : ∀ a, Demands required optional members (rest a)) :
    Demands required (name :: optional) members
      ((written members).optional position name read >>= rest) := by
  intro b hb
  obtain ⟨a, ha, hb⟩ := Option.bind_eq_some_iff.mp hb
  obtain ⟨hrequired, hoptional⟩ := h a b hb
  exact ⟨hrequired, List.forall_mem_cons.mpr ⟨count_of_optional ha, hoptional⟩⟩

/-- What cannot be read because of a fault. -/
theorem eq_none {α : Type} {result : Option α} (h : Demands required optional members result)
    (hfaulty : Faulty required optional members) : result = none :=
  Option.eq_none_iff_forall_ne_some.mpr fun a ha => (h a ha).not_faulty hfaulty

end Demands

/-- Fields in the opposite order, after a member with another name. -/
theorem rearranged_reverse {fields : List (String × Json)} {further : String × Json}
    (leftOut : List String) (hfurther : further.1 ∉ fields.map Prod.fst) :
    Rearranged fields leftOut (further :: (fields.filter (·.1 ∉ leftOut)).reverse) := by
  refine ⟨[further], ?_, by simpa using hfurther⟩
  exact ((List.reverse_perm _).cons further).trans (List.perm_append_singleton further _).symm

end Json.Record

/-! ## Formats -/

open Json.Record (Rearranged Demands rearranged_self rearranged_reverse)

/-- A format in which records are stored. -/
structure Format (α : Type) where
  /-- The text that is written for a record. -/
  toText : α → String
  /-- The record that is read from a text. -/
  ofText? : String → Option α
  /-- The fields of a record, each with a form in which its value may be given. -/
  Fields : α → List (String × Json) → Prop
  /-- The names of the fields that must be there, and of those that may be left out. -/
  required : List String
  /-- The names of the fields that may be left out. -/
  optional : List String
  /-- A record in which fields that may be left out are null. -/
  without : α → List String → α
  /-- Members that are no record. -/
  Faulty : List (String × Json) → Prop

namespace Format

variable {α : Type} {f : Format α}

/-- The texts of a record are read as this record. They need not have its null fields, and are
read as a record with a null where they leave out another field that may be null. Members with
a fault are not read. -/
structure Lasts (f : Format α) : Prop where
  /-- What is written is read back. -/
  kept : ∀ x, f.ofText? (f.toText x) = some x
  /-- It is an object with the fields of the record. -/
  written : ∀ x, ∃ fields, f.Fields x fields ∧ f.toText x = (Json.record fields).compact
  /-- The fields have the names that the format knows. -/
  named : ∀ {x fields}, f.Fields x fields → Json.Record.Named f.required f.optional fields
  /-- In any order, among any other members and without those that are null they are still that
  record. -/
  rearranged : ∀ {x fields leftOut members s}, f.Fields x fields →
    Rearranged fields leftOut members →
    (∀ field ∈ fields, field.1 ∈ leftOut → field.2 = .null) →
    (Json.record members).IsText s → f.ofText? s = some x
  /-- Where fields are left out that may be, they are read as null. -/
  shortened : ∀ {x fields leftOut members s}, f.Fields x fields →
    Rearranged fields leftOut members → (∀ name ∈ leftOut, name ∈ f.optional) →
    (Json.record members).IsText s → f.ofText? s = some (f.without x leftOut)
  /-- Members with a fault are not read. -/
  faulty : ∀ {members s}, f.Faulty members → (Json.record members).IsText s → f.ofText? s = none

/-- What is to be shown of a format that reads the fields of an object. -/
structure Lawful (f : Format α) (read? : Json → Option α) : Prop where
  /-- A text is read as JSON first. -/
  ofText? : ∀ s, f.ofText? s = (Json.parse? s).bind read?
  /-- A record is written as an object with its fields. -/
  written : ∀ x, ∃ fields, f.Fields x fields ∧ f.toText x = (Json.record fields).compact
  /-- The fields have the names that the format knows. -/
  named : ∀ {x fields}, f.Fields x fields → Json.Record.Named f.required f.optional fields
  /-- A field that must be there is never null. -/
  filled : ∀ {x fields name}, f.Fields x fields → name ∈ f.required → (name, .null) ∉ fields
  /-- Leaving out what is null changes nothing. -/
  without_null : ∀ {x fields leftOut}, f.Fields x fields →
    (∀ field ∈ fields, field.1 ∈ leftOut → field.2 = .null) → f.without x leftOut = x
  /-- Rearranged fields are read as the record without those that are left out. -/
  read : ∀ {x fields leftOut members}, f.Fields x fields →
    Rearranged fields leftOut members → (∀ name ∈ f.required, name ∉ leftOut) →
    read? (.record members) = some (f.without x leftOut)
  /-- Members with a fault are not read. -/
  refused : ∀ {members}, f.Faulty members → read? (.record members) = none

namespace Lawful

variable {read? : Json → Option α} {x : α} {fields members : List (String × Json)}
  {leftOut : List String} {s : String}

/-- Every text of members is read as these members are. -/
theorem ofText?_of_isText (h : f.Lawful read?) (hs : (Json.record members).IsText s) :
    f.ofText? s = read? (.record members) := by
  rw [h.ofText?, Json.parse?_of_isText hs, Option.bind_some]

/-- No field that must be there is among those that are null. -/
theorem kept_of_null (h : f.Lawful read?) (hx : f.Fields x fields)
    (hnull : ∀ field ∈ fields, field.1 ∈ leftOut → field.2 = .null) :
    ∀ name ∈ f.required, name ∉ leftOut := by
  intro name hname hout
  have hknown := (h.named hx).perm.mem_iff.mpr (List.mem_append_left f.optional hname)
  obtain ⟨⟨_, value⟩, hmem, rfl⟩ := List.mem_map.mp hknown
  obtain rfl : value = .null := hnull _ hmem hout
  exact h.filled hx hname hmem

/-- No field that must be there is among those that may be left out. -/
theorem kept_of_optional (h : f.Lawful read?) (hx : f.Fields x fields)
    (hleft : ∀ name ∈ leftOut, name ∈ f.optional) : ∀ name ∈ f.required, name ∉ leftOut := by
  intro name hname hout
  have hnodup := (h.named hx).perm.nodup_iff.mp (h.named hx).nodup
  exact (List.nodup_append.mp hnodup).2.2 name hname name (hleft name hout) rfl

/-- Fields in any order and among any others are read as their record, without those that are null
too. -/
theorem ofText?_of_rearranged (h : f.Lawful read?) (hx : f.Fields x fields)
    (hmembers : Rearranged fields leftOut members)
    (hnull : ∀ field ∈ fields, field.1 ∈ leftOut → field.2 = .null)
    (hs : (Json.record members).IsText s) : f.ofText? s = some x := by
  rw [h.ofText?_of_isText hs, h.read hx hmembers (h.kept_of_null hx hnull),
    h.without_null hx hnull]

/-- In a lawful format records stay readable. -/
theorem lasts (h : f.Lawful read?) : f.Lasts where
  kept x := by
    obtain ⟨fields, hx, htext⟩ := h.written x
    rw [htext]
    exact h.ofText?_of_rearranged hx (rearranged_self fields) (by simp) (Json.isText_compact _)
  written := h.written
  named := h.named
  rearranged := h.ofText?_of_rearranged
  shortened hx hmembers hleft hs := by
    rw [h.ofText?_of_isText hs, h.read hx hmembers (h.kept_of_optional hx hleft)]
  faulty hmembers hs := by rw [h.ofText?_of_isText hs, h.refused hmembers]

end Lawful

end Format

/-- A record is not null, so it is read as a value. -/
theorem Json.nullable?_record {α : Type} (read : Json → Option α)
    (members : List (String × Json)) :
    nullable? read (.record members) = (read (.record members)).map some :=
  rfl

/-- What is written as null for a value that may be absent is its absence. -/
theorem Json.eq_none_of_nullable {α : Type} {write : α → Json} (hnull : ∀ a, write a ≠ .null)
    {value : Option α} (h : nullable write value = .null) : value = none := by
  cases value with
  | none => rfl
  | some a => exact absurd h (hnull a)

/-! ## The records of rollouts -/

namespace Canary

/-- The format of canary gates. -/
def format : Format Canary where
  toText c := c.toJson.compact
  ofText? s := (Json.parse? s).bind ofJson?
  Fields c fields := fields = c.fields
  required := required
  optional := []
  without c _ := c
  Faulty := Json.Record.Faulty required []

private theorem demands_ofJson? (members : List (String × Json)) :
    Demands required [] members (ofJson? (.record members)) := by
  rw [ofJson?, Json.Record.ofJson?_record, Json.Record.some_bind]
  exact .required_bind fun _ => .required_bind fun _ => .done _

/-- Gates have a lawful format. -/
theorem format_lawful : format.Lawful ofJson? where
  ofText? _ := rfl
  written c := ⟨c.fields, rfl, rfl⟩
  named := by
    rintro c _ rfl
    exact c.named_fields
  filled := by
    rintro c _ name rfl _
    simp [fields, Json.natural]
  without_null _ _ := rfl
  read := by
    rintro c _ leftOut members rfl hmembers hleft
    exact ofJson?_of_rearranged hmembers hleft
  refused := (demands_ofJson? _).eq_none

/-- The forms in which a gate that may be absent is given: null, or its members in any order and
among others. -/
inductive Form : Option Canary → Json → Prop where
  | absent : Form none .null
  | given {c : Canary} {members : List (String × Json)}
    (h : Rearranged c.fields [] members) : Form (some c) (.record members)

/-- Every form of a gate is read as that gate. -/
theorem Form.nullable? {canary : Option Canary} {gate : Json} (h : Form canary gate) :
    Json.nullable? ofJson? gate = some canary := by
  cases h with
  | absent => rfl
  | given h => rw [Json.nullable?_record, ofJson?_of_rearranged h (by simp), Option.map_some]

private theorem Form.eq_none {canary : Option Canary} (h : Form canary .null) : canary = none := by
  cases h
  rfl

end Canary

namespace Request

/-- The format of requests. -/
def format : Format Request where
  toText q := q.toJson.compact
  ofText? s := (Json.parse? s).bind ofJson?
  Fields q fields := fields = q.fields
  required := required
  optional := optional
  without := without
  Faulty := Json.Record.Faulty required optional

private theorem demands_ofJson? (members : List (String × Json)) :
    Demands required optional members (ofJson? (.record members)) := by
  rw [ofJson?, Json.Record.ofJson?_record, Json.Record.some_bind]
  exact .required_bind fun _ => .required_bind fun _ => .required_bind fun _ =>
    .required_bind fun _ => .required_bind fun _ => .required_bind fun _ =>
    .optional_bind fun _ => .done _

/-- Requests have a lawful format. -/
theorem format_lawful : format.Lawful ofJson? where
  ofText? _ := rfl
  written q := ⟨q.fields, rfl, rfl⟩
  named := by
    rintro q _ rfl
    exact q.named_fields
  filled := by
    rintro q _ name rfl hname hmem
    obtain ⟨rfl, -⟩ : name = "canary_total_instances" ∧ _ := by
      simpa [fields, Json.text, Json.natural] using hmem
    exact absurd hname (by decide)
  without_null := by
    rintro q _ leftOut rfl hnull
    have htotal (hout : "canary_total_instances" ∈ leftOut) : none = q.canaryTotalInstances := by
      have hmem : ("canary_total_instances", .nullable (fun n => .natural n.toNat)
          q.canaryTotalInstances) ∈ q.fields := by simp [fields]
      exact (Json.eq_none_of_nullable (by simp [Json.natural]) (hnull _ hmem hout)).symm
    simp only [format, without, ite_eq_right_iff.mpr htotal]
  read := by
    rintro q _ leftOut members rfl hmembers hleft
    exact ofJson?_of_rearranged hmembers hleft
  refused := (demands_ofJson? _).eq_none

end Request

namespace Deployment

/-- The format of deployments. Their canary gate has the same freedom and can have the same
faults. -/
def format : Format Deployment where
  toText := toText
  ofText? := ofText?
  Fields d fields := ∃ gate, Canary.Form d.canary gate ∧ fields = d.fields gate
  required := required
  optional := optional
  without := without
  Faulty members := Json.Record.Faulty required optional members ∨
    ∃ gate, ("canary", .record gate) ∈ members ∧ Json.Record.Faulty Canary.required [] gate

private theorem demands_ofJson? (members : List (String × Json)) :
    Demands required optional members (ofJson? (.record members)) := by
  rw [ofJson?, Json.Record.ofJson?_record, Json.Record.some_bind]
  exact .required_bind fun _ => .required_bind fun _ => .required_bind fun _ =>
    .required_bind fun _ => .required_bind fun _ => .required_bind fun _ =>
    .optional_bind fun _ => .required_bind fun _ => .required_bind fun _ =>
    .required_bind fun _ => .required_bind fun _ => .required_bind fun _ =>
    .optional_bind fun _ => .optional_bind fun _ => .required_bind fun _ =>
    .required_bind fun _ => .required_bind fun _ => .done _

/-- A deployment with a fault in its own members or in those of its gate is not read. -/
theorem ofJson?_of_faulty {members : List (String × Json)} (h : format.Faulty members) :
    ofJson? (.record members) = none := by
  rcases h with hfaulty | ⟨gate, hmem, hfaulty⟩
  · exact (demands_ofJson? members).eq_none hfaulty
  · have hgate : Json.nullable? Canary.ofJson? (.record gate) = none := by
      rw [Json.nullable?_record, (Canary.demands_ofJson? gate).eq_none hfaulty, Option.map_none]
    have hcanary : (Json.Record.written members).optional 6 "canary" Canary.ofJson? = none := by
      refine Option.eq_none_iff_forall_ne_some.mpr fun c hc => ?_
      rw [Json.Record.nullable?_of_optional hc hmem] at hgate
      cases hgate
    -- The fields before the gate may be read, but what follows it is not reached.
    rw [ofJson?, Json.Record.ofJson?_record, Json.Record.some_bind, hcanary]
    simp only [Option.bind_eq_bind, Option.bind_none, Option.bind_fun_none]

/-- Deployments have a lawful format. -/
theorem format_lawful : format.Lawful ofJson? where
  ofText? _ := rfl
  written d := by
    have hform : Canary.Form d.canary (Json.nullable Canary.toJson d.canary) := by
      cases d.canary with
      | none => exact .absent
      | some c => exact .given (rearranged_self c.fields)
    exact ⟨_, ⟨_, hform, rfl⟩, rfl⟩
  named := by
    rintro d _ ⟨gate, -, rfl⟩
    exact d.named_fields gate
  filled := by
    rintro d _ name ⟨gate, -, rfl⟩ hname hmem
    simp only [fields, Json.text, Json.natural, Phase.toJson, StatusValue.toJson,
      StatusReason.toJson, List.mem_cons, Prod.mk.injEq, reduceCtorEq, and_false, false_or,
      List.not_mem_nil, or_false] at hmem
    rcases hmem with ⟨rfl, -⟩ | ⟨rfl, -⟩ | ⟨rfl, -⟩ <;> exact absurd hname (by decide)
  without_null := by
    rintro d _ leftOut ⟨gate, hform, rfl⟩ hnull
    have hcanary (hout : "canary" ∈ leftOut) : none = d.canary := by
      obtain rfl : gate = .null := hnull ("canary", gate) (by simp [fields]) hout
      exact hform.eq_none.symm
    have htime (hout : "last_healthy_at" ∈ leftOut) : none = d.lastHealthyAt := by
      have hmem : ("last_healthy_at", .nullable (fun t => .natural t.toNat) d.lastHealthyAt) ∈
          d.fields gate := by simp [fields]
      exact (Json.eq_none_of_nullable (by simp [Json.natural]) (hnull _ hmem hout)).symm
    have herror (hout : "error" ∈ leftOut) : none = d.error := by
      have hmem : ("error", .nullable .text d.error) ∈ d.fields gate := by simp [fields]
      exact (Json.eq_none_of_nullable (by simp [Json.text]) (hnull _ hmem hout)).symm
    simp only [format, without, ite_eq_right_iff.mpr hcanary, ite_eq_right_iff.mpr htime,
      ite_eq_right_iff.mpr herror]
  read := by
    rintro d _ leftOut members ⟨gate, hform, rfl⟩ hmembers hleft
    exact ofJson?_of_rearranged hform.nullable? hmembers hleft
  refused := ofJson?_of_faulty

end Deployment

namespace Instance

/-- The format of instances. -/
def format : Format Instance where
  toText := toText
  ofText? := ofText?
  Fields i fields := fields = i.fields
  required := required
  optional := []
  without i _ := i
  Faulty := Json.Record.Faulty required []

private theorem demands_ofJson? (members : List (String × Json)) :
    Demands required [] members (ofJson? (.record members)) := by
  rw [ofJson?, Json.Record.ofJson?_record, Json.Record.some_bind]
  exact .required_bind fun _ => .required_bind fun _ => .required_bind fun _ =>
    .required_bind fun _ => .required_bind fun _ => .required_bind fun _ =>
    .required_bind fun _ => .done _

/-- Instances have a lawful format. -/
theorem format_lawful : format.Lawful ofJson? where
  ofText? _ := rfl
  written i := ⟨i.fields, rfl, rfl⟩
  named := by
    rintro i _ rfl
    exact i.named_fields
  filled := by
    rintro i _ name rfl _
    simp [fields, Json.text, Json.natural, InstanceStatus.toJson, InstanceHealth.toJson]
  without_null _ _ := rfl
  read := by
    rintro i _ leftOut members rfl hmembers hleft
    exact ofJson?_of_rearranged hmembers hleft
  refused := (demands_ofJson? _).eq_none

end Instance

/-- Every canary gate, request, deployment and instance is read from its stored text, and from
each text that gives its members in another order or among others or leaves out some that are
null, a deployment also where its canary gate is so rearranged. Without another field that may be
null the rest is read, with a null for that field; without one that must be there, or with one
that is given twice, nothing is. -/
theorem records_stay_readable : Canary.format.Lasts ∧ Request.format.Lasts ∧
    Deployment.format.Lasts ∧ Instance.format.Lasts :=
  ⟨Canary.format_lawful.lasts, Request.format_lawful.lasts, Deployment.format_lawful.lasts,
    Instance.format_lawful.lasts⟩

example : Canary.format.ofText? "\x7b \"note\": [1.5e3, null],\n \"current_instance_target\" :1,
    \"total_instances\":2\x7d " = some ⟨2, 1⟩ := by decide +kernel

/-- A deployment with awkward texts, whose members stand in the opposite order and after one that
is not known, as do those of its canary gate. -/
theorem records_stay_readable_reversed :
    let d : Deployment := { Deployment.begin ⟨"d\"1\\", "shop\x00", "2", "1", 3, 3, some 2⟩ 0 with
      canary := some ⟨2, 1⟩, error := some "line\n\u2028\x1f" }
    let gate : List (String × Json) := ("pace", .number (.decimal true 25 (-1))) ::
      ((Canary.fields ⟨2, 1⟩).filter (·.1 ∉ [])).reverse
    let members := ("pins", .array [.null, .string none]) ::
      ((d.fields (.record gate)).filter (·.1 ∉ ["last_healthy_at"])).reverse
    d.lastHealthyAt = none ∧
      Deployment.ofText? (Json.record members).compact = some d ∧
      Deployment.ofText? (Json.record (("id", .text "d2") :: members)).compact = none := by
  intro d gate members
  have hgate : Canary.Form d.canary (.record gate) :=
    .given (rearranged_reverse [] (by simp [Canary.fields]))
  have hmembers : Rearranged (d.fields (.record gate)) ["last_healthy_at"] members :=
    rearranged_reverse _ (by simp [Deployment.fields])
  have hnull : ∀ field ∈ d.fields (.record gate), field.1 ∈ ["last_healthy_at"] →
      field.2 = .null := by
    simp [Deployment.fields, d, Deployment.begin, Json.nullable]
  obtain ⟨-, -, hlasts, -⟩ := records_stay_readable
  have hid : "id" ∈ Deployment.required ++ Deployment.optional := by decide
  have hdouble : Deployment.format.Faulty (("id", .text "d2") :: members) :=
    Or.inl (.doubled hid (by simp [members, Deployment.fields]))
  exact ⟨rfl, hlasts.rearranged ⟨_, hgate, rfl⟩ hmembers hnull (Json.isText_compact _),
    hlasts.faulty hdouble (Json.isText_compact _)⟩

/-- An error text that is left out is read as none, and not refused. -/
theorem Deployment.error_left_out_is_read :
    let d : Deployment := { Deployment.begin ⟨"d1", "shop", "2", "1", 3, 3, none⟩ 0 with
      error := some "boom" }
    let fields := d.fields .null
    fields.lookup "error" = some (.text "boom") ∧ Json.text "boom" ≠ .null ∧
      Rearranged fields ["error"] (fields.filter (·.1 ∉ ["error"])) ∧
      ofText? (Json.record (fields.filter (·.1 ∉ ["error"]))).compact =
        some { d with error := none } := by
  intro d fields
  have hmembers : Rearranged fields ["error"] (fields.filter (·.1 ∉ ["error"])) :=
    ⟨[], by simp, by simp⟩
  have hread := format_lawful.lasts.shortened ⟨_, .absent, rfl⟩ hmembers
    (by simp [format, optional]) (Json.isText_compact _)
  exact ⟨rfl, by simp [Json.text], hmembers, hread⟩

end Rollout
