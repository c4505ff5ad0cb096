import JsonService.Config
import JsonService.Proofs.Config.Overlays
import JsonService.Proofs.Config.Words

/-!
# Configurations read back from an environment

Four variables hold the parts of a configuration. What a configuration writes for a part is a text that stands for
itself, also in an environment, and whatever the other variables hold, their settings are laid beside it and not in its
place. So a part comes back if its variable is set, and is the default if not.

**Results.**
* `parse_text`, `path?_name`, `apart`: each text stands for itself, under a path of its own.
* `ofSetting_eq`: a configuration is read from the texts of its parts.
* `ofEnvironment_restores`.
-/
namespace JsonService.Config

open Setting (at?)

/-- The variables that hold the parts of a configuration. -/
inductive Variable where
  | address | grace | format | level
  deriving DecidableEq

namespace Variable

def name : Variable → String
  | .address => "TAPROOM_ADDR"
  | .grace => "TAPROOM_SHUTDOWN_TIMEOUT"
  | .format => "TAPROOM_LOG__FORMAT"
  | .level => "TAPROOM_LOG__LEVEL"

def path : Variable → List String
  | .address => ["addr"]
  | .grace => ["shutdown_timeout"]
  | .format => ["log", "format"]
  | .level => ["log", "level"]

def text (c : Config) : Variable → String
  | .address => c.address.render
  | .grace => c.grace.render
  | .format => c.log.format.name
  | .level => c.log.level

/-- The variable set to the text of a configuration. -/
def entry (c : Config) (v : Variable) : String × String := (v.name, v.text c)

theorem path?_name (v : Variable) : Environment.path? v.name = some v.path := by
  cases v <;> decide +kernel

theorem apart {v w : Variable} (h : v ≠ w) : ¬v.path <+: w.path := by
  revert h
  cases v <;> cases w <;> decide

/-- Every part is written as a text that stands for itself, if the filter is one. -/
theorem parse_text {c : Config} (plain : Setting.parse c.log.level = .text c.log.level) (v : Variable) :
    Setting.parse (v.text c) = .text (v.text c) := by
  cases v with
  | address => exact Setting.parse_address c.address
  | grace => exact Setting.parse_duration c.grace
  | format => exact Setting.parse_format c.log.format
  | level => exact plain

end Variable

/-! ## Reading the parts -/

theorem formatOfName_name (path : List String) (f : Log.Format) : formatOfName path f.name = .ok f := by
  cases f with
  | json => rfl
  | text => rfl

theorem readAddress_render (path : List String) (a : Address) : readAddress path (.text a.render) = .ok a := by
  simp only [readAddress, readText, Setting.text?, bind, Except.bind, Address.parse?_render]
  rfl

theorem readDuration_render (path : List String) (d : Duration) : readDuration path (.text d.render) = .ok d := by
  simp only [readDuration, readText, Setting.text?, bind, Except.bind, Duration.parse?_render]
  rfl

/-- A table with the texts of a style is read as that style. -/
theorem readStyle_eq {path : List String} {v : Setting} {style : Log.Style}
    (format : at? ["format"] v = some (.text style.format.name)) (level : at? ["level"] v = some (.text style.level)) :
    readStyle path v = .ok style := by
  cases v with
  | table es =>
    have format : Entries.get? "format" es = some (.text style.format.name) := by
      simpa [at?, Setting.entries] using format
    have level : Entries.get? "level" es = some (.text style.level) := by simpa [at?, Setting.entries] using level
    have read : readFormat (path ++ ["format"]) (.text style.format.name) = .ok style.format := formatOfName_name ..
    simp only [readStyle, format, level, readPart, read]
    rfl
  | _ => cases format

/-- A table of which the parts are the texts of a configuration is read as that configuration. -/
theorem ofSetting_eq {s : Setting} {c : Config} (h : ∀ v : Variable, at? v.path s = some (.text (v.text c))) :
    ofSetting s = .ok c := by
  have address : Entries.get? "addr" s.entries = some (.text c.address.render) := by
    simpa [at?, Variable.path, Variable.text] using h .address
  have grace : Entries.get? "shutdown_timeout" s.entries = some (.text c.grace.render) := by
    simpa [at?, Variable.path, Variable.text] using h .grace
  obtain ⟨log, style, format⟩ := Option.bind_eq_some_iff.mp (h .format)
  have level : at? ["level"] log = some (.text c.log.level) := by
    simpa only [at?, Variable.path, Variable.text, style, Option.bind_some] using h .level
  have readLog : readStyle ["log"] log = .ok c.log := readStyle_eq format level
  simp only [ofSetting, address, grace, style, readPart, readAddress_render, readDuration_render, readLog]
  rfl

/-! ## Environments -/

variable {c : Config} {env : Environment}

/-- Every variable of an environment is one that is set to the text of a configuration, or holds no setting. -/
def DrawnFrom (env : Environment) (c : Config) : Prop :=
  ∀ e ∈ env, (∃ v : Variable, e = v.entry c) ∨ Environment.path? e.1 = none

theorem DrawnFrom.eq_entry (h : DrawnFrom env c) {e : String × String} (he : e ∈ env) {v : Variable}
    (held : Environment.path? e.1 = some v.path) : e = v.entry c := by
  rcases h e he with ⟨w, rfl⟩ | unread
  · by_cases same : w = v
    · rw [same]
    · rw [Variable.entry, w.path?_name, Option.some.injEq] at held
      exact absurd (held ▸ List.prefix_rfl) (Variable.apart same)
  · rw [unread] at held
    cases held

theorem DrawnFrom.clear (h : DrawnFrom env c) (plain : Setting.parse c.log.level = .text c.log.level) (v : Variable) :
    env.Clear v.path where
  apart e he p held := by
    rcases h e he with ⟨w, rfl⟩ | unread
    · obtain rfl : w.path = p := by rw [Variable.entry, w.path?_name, Option.some.injEq] at held; exact held
      by_cases same : w = v
      · exact .inl (by rw [same])
      · exact .inr ⟨Variable.apart same, Variable.apart (Ne.symm same)⟩
    · rw [unread] at held
      cases held
  texts e he held := ⟨v.text c, by rw [h.eq_entry he held]; exact v.parse_text plain⟩

/-- What stands under the path of a variable: its text if it is set, and otherwise that of the default. -/
theorem DrawnFrom.at?_layeredOver (h : DrawnFrom env c) (plain : Setting.parse c.log.level = .text c.log.level)
    (v : Variable) : at? v.path (env.layeredOver (toSetting {})) =
      some (.text (if v.entry c ∈ env then v.text c else v.text {})) := by
  have default : at? v.path (toSetting {}) = some (.text (v.text {})) := by cases v <;> rfl
  have ne : v.path ≠ [] := by cases v <;> exact List.cons_ne_nil _ _
  have only : ∀ w ∈ env.values v.path, w = .text (v.text c) := by
    intro w hw
    obtain ⟨e, he, rfl⟩ := List.mem_map.mp hw
    obtain ⟨mem, held⟩ := List.mem_filter.mp he
    rw [h.eq_entry mem (of_decide_eq_true held)]
    exact v.parse_text plain
  rw [(h.clear plain v).at?_layeredOver ne, default]
  split
  · next isSet =>
    have mem : Setting.parse (v.text c) ∈ env.values v.path :=
      List.mem_map.mpr ⟨v.entry c, List.mem_filter.mpr ⟨isSet, decide_eq_true v.path?_name⟩, rfl⟩
    have last := List.getLast?_eq_some_getLast (List.ne_nil_of_mem mem)
    rw [last, only _ (List.getLast_mem _), Option.some_or]
  · next unset =>
    have empty : env.values v.path = [] := by
      refine List.map_eq_nil_iff.mpr (List.filter_eq_nil_iff.mpr fun e he held => unset ?_)
      rwa [← h.eq_entry he (of_decide_eq_true held)]
    rw [empty, List.getLast?_nil, Option.none_or]

/-- **Configurations come back.** Let the variables of a configuration be set to the texts with which it is serialized,
or some of them, in any order. Then what is read is that configuration in each part of which the variable is set, and
the default in every other; if all are set, it is that configuration. Its filter has to be a text that stands for itself,
which a number, for one, does not. -/
theorem ofEnvironment_restores (c : Config) (env : Environment)
    (plain : Setting.parse c.log.level = .text c.log.level) (drawn : DrawnFrom env c) :
    c.toJson = .object
      [("addr", .text (Variable.text c .address)), ("shutdown_timeout", .text (Variable.text c .grace)),
        ("log", .object [("format", .text (Variable.text c .format)), ("level", .text (Variable.text c .level))])] ∧
    ofEnvironment env = .ok
      { address := if Variable.entry c .address ∈ env then c.address else ({} : Config).address
        grace := if Variable.entry c .grace ∈ env then c.grace else ({} : Config).grace
        log :=
          { format := if Variable.entry c .format ∈ env then c.log.format else ({} : Config).log.format
            level := if Variable.entry c .level ∈ env then c.log.level else ({} : Config).log.level } } ∧
    ((∀ v : Variable, v.entry c ∈ env) → ofEnvironment env = .ok c) := by
  refine ⟨rfl, ofSetting_eq fun v => ?_, fun all => ofSetting_eq fun v => ?_⟩
  · rw [drawn.at?_layeredOver plain v]
    cases v <;> simp only [Variable.text] <;> split <;> rfl
  · rw [drawn.at?_layeredOver plain v, if_pos (all v)]

def onNetwork : Config where
  address := ⟨.groups ⟨[0xFE80, 0, 0, 0, 0, 0, 0, 1], rfl⟩ 3, 8080⟩
  grace := ⟨34187617, ⟨1500000, by decide⟩⟩
  log := ⟨.text, "info,store=debug"⟩

def sparse : Environment :=
  [("TAPROOM_LOG__FORMAT", "text"), ("PATH", "/usr/bin"), ("TAPROOM_ADDR", "[fe80::1%3]:8080")]

/-- The two parts that are set come back, and beside the format the filter is the default. -/
theorem ofEnvironment_restores_sparse :
    Setting.parse onNetwork.log.level = .text onNetwork.log.level ∧ DrawnFrom sparse onNetwork ∧
      ofEnvironment sparse = .ok { address := onNetwork.address, grace := .ofSeconds 20, log := ⟨.text, "info"⟩ } := by
  have plain : Setting.parse onNetwork.log.level = .text onNetwork.log.level := rfl
  have drawn : DrawnFrom sparse onNetwork := by
    simp only [DrawnFrom, sparse, List.forall_mem_cons]
    exact ⟨.inl ⟨.format, by decide +kernel⟩, .inr (by decide +kernel), .inl ⟨.address, by decide +kernel⟩,
      fun _ h => nomatch h⟩
  obtain ⟨-, read, -⟩ := ofEnvironment_restores onNetwork sparse plain drawn
  exact ⟨plain, drawn, read.trans (congrArg Except.ok (by decide +kernel))⟩

end JsonService.Config
