import Rollout.Config
import Rollout.Proofs.TomlRange
import Rollout.Proofs.TomlWritten

/-!
# Configurations are read back

A configuration text may leave settings out, give them in any order and spell its strings in many
ways; what is written for the configuration it denotes has one layout. It is always read as that
configuration, whatever the data directory is called.
-/

namespace Rollout

/-- The kind of a policy, the name of its field, and what that holds. -/
def StepPolicy.settings : StepPolicy → String × String × UInt32
  | .fixed instances => ("fixed", "instances", instances)
  | .fraction percent => ("fraction", "percent", percent)

namespace Config

open Toml (Value Statement Entries Building)

/-! ## The interval can be written -/

/-- The settings of a table, an array or tables in range are in range. -/
theorem inRange_of_section? {value setting : Value} {field : Nat → String → Option Value}
    {position : Nat} {key : String} (hvalue : value.InRange) (hfield : section? value = some field)
    (hsetting : field position key = some setting) : setting.InRange := by
  unfold section? at hfield
  split at hfield
  · obtain rfl := Option.some.inj hfield
    cases hvalue with
    | table _ hin => exact Entries.InRange.lookup hin hsetting
  · obtain rfl := Option.some.inj hfield
    cases hvalue with
    | array hin => exact hin setting (List.mem_of_getElem? hsetting)
  · obtain rfl := Option.some.inj hfield
    obtain ⟨entries, hentries, rfl⟩ := Option.map_eq_some_iff.mp hsetting
    cases hvalue with
    | tables hin => exact .table _ (hin entries (List.mem_of_getElem? hentries))
  · obtain rfl := Option.some.inj hfield
    cases hsetting
  · cases hfield

private theorem toNat_le_of_tomlSeconds? {value : Value} {secs : UInt64} (hvalue : value.InRange)
    (h : tomlSeconds? value = some secs) : secs.toNat ≤ tomlLimit := by
  obtain ⟨n, hn, rfl⟩ := Option.map_eq_some_iff.mp h
  unfold natural? at hn
  split at hn
  · next i =>
    split at hn
    · next hbound =>
      obtain rfl := Option.some.inj hn
      cases hvalue with
      | integer hlow hhigh =>
        have hsize : i.toNat < UInt64.size := by simp only [UInt64.size]; omega
        rw [UInt64.toNat_ofNat_of_lt' hsize, tomlLimit]
        omega
    · cases hn
  · cases hn

private theorem interval_le_of_controllerOfToml? {value : Value} {controller : ControllerConfig}
    (hvalue : value.InRange) (h : controllerOfToml? value = some controller) :
    controller.tickIntervalSecs.toNat ≤ tomlLimit := by
  obtain ⟨field, hfield, h⟩ := Option.bind_eq_some_iff.mp h
  obtain ⟨secs, hsecs, h⟩ := Option.bind_eq_some_iff.mp h
  obtain ⟨policy, -, heq⟩ := Option.bind_eq_some_iff.mp h
  obtain rfl := Option.some.inj heq
  unfold setting? at hsecs
  split at hsecs
  · obtain rfl := Option.some.inj hsecs
    exact of_decide_eq_true rfl
  · next hsetting =>
    exact toNat_le_of_tomlSeconds? (inRange_of_section? hvalue hfield hsetting) hsecs

/-- The interval of a configuration that has been read is one that can be written. -/
theorem interval_le_of_ofEntries? {entries : Entries} {c : Config} (hentries : entries.InRange)
    (h : ofEntries? entries = some c) : c.controller.tickIntervalSecs.toNat ≤ tomlLimit := by
  obtain ⟨controller, hcontroller, h⟩ := Option.bind_eq_some_iff.mp h
  obtain ⟨store, -, h⟩ := Option.bind_eq_some_iff.mp h
  obtain ⟨scheduler, -, heq⟩ := Option.bind_eq_some_iff.mp h
  obtain rfl := Option.some.inj heq
  unfold setting? at hcontroller
  split at hcontroller
  · obtain rfl := Option.some.inj hcontroller
    exact of_decide_eq_true rfl
  · next hlookup => exact interval_le_of_controllerOfToml? (hentries.lookup hlookup) hcontroller

/-! ## The written text -/

open Toml (Line Plain)

/-- The lines of a configuration. -/
def lines (c : Config) : List Line :=
  let (kind, name, size) := c.controller.stepPolicy.settings
  [.header [] "controller",
    .setting "tick_interval_secs" (.number c.controller.tickIntervalSecs.toNat),
    .blank,
    .header ["controller"] "step_policy",
    .setting "kind" (.text kind),
    .setting name (.number size.toNat),
    .blank,
    .header [] "store",
    .setting "data_dir" (.text c.store.dataDir),
    .blank,
    .header [] "scheduler",
    .setting "auto_ready" (.flag c.scheduler.autoReady)]

/-- The entries of the document that is written for a configuration. -/
def entries (c : Config) : Entries :=
  let (kind, name, size) := c.controller.stepPolicy.settings
  [("controller", .table .header [
      ("tick_interval_secs", .integer c.controller.tickIntervalSecs.toNat),
      ("step_policy", .table .header [("kind", .string kind), (name, .integer size.toNat)])]),
    ("store", .table .header [("data_dir", .string c.store.dataDir)]),
    ("scheduler", .table .header [("auto_ready", .boolean c.scheduler.autoReady)])]

variable {c : Config}

private theorem quote_fixed : Toml.quote "fixed" = "\"fixed\"".toList := by
  decide

private theorem quote_fraction : Toml.quote "fraction" = "\"fraction\"".toList := by
  decide

private theorem toList_policyLines (policy : StepPolicy) : (policyLines policy).toList =
    (Line.setting "kind" (.text policy.settings.1)).written ++
      (Line.setting policy.settings.2.1 (.number policy.settings.2.2.toNat)).written := by
  unfold policyLines
  cases policy with
  | fixed instances =>
    simp [StepPolicy.settings, Line.written, Plain.written, Text.decimal, quote_fixed]
  | fraction percent =>
    simp [StepPolicy.settings, Line.written, Plain.written, Text.decimal, quote_fraction]

/-- What is written for a configuration is its lines, one after another. -/
theorem toToml?_eq_some (h : c.controller.tickIntervalSecs.toNat ≤ tomlLimit) :
    c.toToml? = some (String.ofList (c.lines.flatMap Line.written)) := by
  unfold toToml?
  rw [if_neg (Nat.not_lt.mpr h)]
  congr 1
  apply String.toList_injective
  simp [toList_policyLines, lines, Line.written, Plain.written, Toml.dotted, Text.decimal]

private theorem isBare_settings (policy : StepPolicy) : Toml.IsBare policy.settings.2.1 := by
  cases policy with
  | fixed instances =>
    show Toml.IsBare "instances"
    decide
  | fraction percent =>
    show Toml.IsBare "percent"
    decide

private theorem fits_lines (h : c.controller.tickIntervalSecs.toNat ≤ tomlLimit) :
    ∀ line ∈ c.lines, line.Fits := by
  have hheader (path : List String) (key : String) (hbare : ∀ part ∈ key :: path, Toml.IsBare part)
      (hdepth : path.length < Toml.nestingLimit - 1) : (Line.header path key).Fits :=
    ⟨(List.forall_mem_cons.mp hbare).2, (List.forall_mem_cons.mp hbare).1, hdepth⟩
  have hsize : c.controller.stepPolicy.settings.2.2.toNat ≤ 9223372036854775807 := by
    have := UInt32.toNat_lt c.controller.stepPolicy.settings.2.2
    omega
  simp only [lines, List.forall_mem_cons]
  exact ⟨hheader _ _ (by decide) (by decide), ⟨by decide, h⟩, trivial,
    hheader _ _ (by decide) (by decide), ⟨by decide, trivial⟩, ⟨isBare_settings _, hsize⟩, trivial,
    hheader _ _ (by decide) (by decide), ⟨by decide, trivial⟩, trivial,
    hheader _ _ (by decide) (by decide), ⟨by decide, trivial⟩, List.forall_mem_nil _⟩

/-- The statements of a configuration's lines build its entries. -/
theorem foldlM_statements (c : Config) :
    (c.lines.filterMap Line.statement?).foldlM Building.extend? .start =
      some ⟨c.entries, ["scheduler"]⟩ := by
  unfold lines entries
  cases c.controller.stepPolicy <;> rfl

/-- What is written says what the configuration says. -/
theorem parse?_written (h : c.controller.tickIntervalSecs.toNat ≤ tomlLimit) :
    Toml.parse? (String.ofList (c.lines.flatMap Line.written)) = some c.entries := by
  have hread := Toml.readStatements_lines (fits_lines h)
  have hmark : Toml.dropMark (c.lines.flatMap Line.written) = c.lines.flatMap Line.written := rfl
  unfold Toml.parse?
  rw [String.toList_ofList, hmark, hread]
  simp [foldlM_statements]

private theorem tomlSeconds?_toNat (secs : UInt64) :
    tomlSeconds? (.integer secs.toNat) = some secs := by
  have hlt := UInt64.toNat_lt secs
  have hbound : (0 : Int) ≤ secs.toNat ∧ (secs.toNat : Int) < UInt64.size := by
    simp only [UInt64.size]
    omega
  rw [tomlSeconds?, natural?, if_pos hbound, Int.toNat_natCast, Option.map_some, UInt64.ofNat_toNat]

private theorem tomlCount?_toNat (count : UInt32) :
    tomlCount? (.integer count.toNat) = some count := by
  have hlt := UInt32.toNat_lt count
  have hbound : (0 : Int) ≤ count.toNat ∧ (count.toNat : Int) < UInt32.size := by
    simp only [UInt32.size]
    omega
  rw [tomlCount?, natural?, if_pos hbound, Int.toNat_natCast, Option.map_some, UInt32.ofNat_toNat]

/-- A table with the name of a kind and a count in the field of that kind is a policy. -/
theorem policyOfToml?_eq_some {entries : Entries} {kind name : String} {value : Value}
    {make : UInt32 → StepPolicy} {size : UInt32}
    (hkind : entries.lookup "kind" = some (.string kind))
    (hmake : StepPolicy.kinds.lookup kind = some (name, make))
    (hname : entries.lookup name = some value) (hcount : tomlCount? value = some size) :
    policyOfToml? (.table .header entries) = some (make size) := by
  simp [policyOfToml?, hkind, hmake, hname, hcount, tomlText?]

/-- The settings of a policy are read back as that policy. -/
theorem policyOfToml?_settings (policy : StepPolicy) :
    policyOfToml? (.table .header [("kind", .string policy.settings.1),
      (policy.settings.2.1, .integer policy.settings.2.2.toNat)]) = some policy := by
  cases policy with
  | fixed instances => exact policyOfToml?_eq_some rfl rfl rfl (tomlCount?_toNat instances)
  | fraction percent => exact policyOfToml?_eq_some rfl rfl rfl (tomlCount?_toNat percent)

/-- A table with an interval and a policy is a controller section. -/
theorem controllerOfToml?_eq_some {entries : Entries} {interval policy : Value}
    {controller : ControllerConfig}
    (hinterval : entries.lookup "tick_interval_secs" = some interval)
    (hpolicy : entries.lookup "step_policy" = some policy)
    (hsecs : tomlSeconds? interval = some controller.tickIntervalSecs)
    (hstep : policyOfToml? policy = some controller.stepPolicy) :
    controllerOfToml? (.table .header entries) = some controller := by
  simp [controllerOfToml?, section?, setting?, hinterval, hpolicy, hsecs, hstep]

/-- Three tables that can be read make a configuration. -/
theorem ofEntries?_eq_some {entries : Entries} {controller store scheduler : Value} {c : Config}
    (hcontroller : entries.lookup "controller" = some controller)
    (hstore : entries.lookup "store" = some store)
    (hscheduler : entries.lookup "scheduler" = some scheduler)
    (hc : controllerOfToml? controller = some c.controller)
    (hs : storeOfToml? store = some c.store) (hr : schedulerOfToml? scheduler = some c.scheduler) :
    ofEntries? entries = some c := by
  simp [ofEntries?, setting?, hcontroller, hstore, hscheduler, hc, hs, hr]

/-- The entries of a configuration are read back as that configuration. -/
theorem ofEntries?_entries (c : Config) : ofEntries? c.entries = some c :=
  ofEntries?_eq_some rfl rfl rfl
    (controllerOfToml?_eq_some rfl rfl (tomlSeconds?_toNat c.controller.tickIntervalSecs)
      (policyOfToml?_settings c.controller.stepPolicy)) rfl rfl

/-- A configuration without faults whose interval can be written is read back. -/
theorem exists_toToml? (hfault : c.fault? = none)
    (h : c.controller.tickIntervalSecs.toNat ≤ tomlLimit) :
    ∃ written, c.toToml? = some written ∧ ofToml written = .ok c := by
  refine ⟨_, toToml?_eq_some h, ?_⟩
  unfold ofToml
  rw [parse?_written h, Option.bind_some, ofEntries?_entries]
  simp only [hfault]

/-- **What has been read can be written, and is read back**: a configuration that a text denotes has
a written form, which denotes just that configuration. -/
theorem written_is_read {text : String} (h : ofToml text = .ok c) :
    ∃ written, c.toToml? = some written ∧ ofToml written = .ok c := by
  unfold ofToml at h
  split at h
  · cases h
  · next config hread =>
    split at h
    · cases h
    · next hfault =>
      obtain rfl := Except.ok.inj h
      obtain ⟨entries, hparse, hentries⟩ := Option.bind_eq_some_iff.mp hread
      have hinterval := interval_le_of_ofEntries? (Toml.inRange_of_parse? hparse) hentries
      exact exists_toToml? hfault hinterval

/-- A configuration whose directory has quotes of both kinds three times in a row, a backslash, a
carriage return and another control character in its name, and line breaks at both ends. -/
def oddDirectory : Config where
  controller := { stepPolicy := .fraction 25 }
  store := { dataDir := "\n'''\\\r\x01\"\"\"\n" }

/-- A data directory whose name no plain style can hold is written and read back. -/
theorem oddDirectory_is_read :
    ofToml ("[controller.step_policy]\nkind = 'fraction'\npercent = 25\n[store]\n" ++
      "data_dir = \"\\n'''\\\\\\r\\u0001\\\"\\\"\\\"\\n\"\n") = .ok oddDirectory ∧
      ∃ written, oddDirectory.toToml? = some written ∧ ofToml written = .ok oddDirectory := by
  have hread : ofToml ("[controller.step_policy]\nkind = 'fraction'\npercent = 25\n[store]\n" ++
      "data_dir = \"\\n'''\\\\\\r\\u0001\\\"\\\"\\\"\\n\"\n") = .ok oddDirectory := by
    decide +kernel
  exact ⟨hread, written_is_read hread⟩

end Config

end Rollout
