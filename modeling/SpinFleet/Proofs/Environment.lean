import Mathlib.Data.List.Nodup
import SpinFleet.Proofs.Keyed
/-!
# Environment — an app's variables are not lost on the way into its pods

Variables reach a pod under names of one alphabet, the environment's: a prefix and the upper case of the variable's
name.  Of two entries with one name a container sees only the last, so nothing may meet another's name there: not the
upper cases of two variables, and not a variable and an address that the operator itself announces.

On the characters that names of variables are made of, lower case undoes upper case (`Text.lower_upper`).  So different
variables stay different, an entry tells which variable it came from (`EnvVar.declared?`), and reading the environment
back gives the variables as they were declared (`App.environment_lossless`).
-/
namespace SpinFleet

/-! ## Upper case and back -/

/-- What names of variables are made of: small letters, digits and the underscore. -/
def Variable.NameChar (c : Char) : Prop := c.isLower = true ∨ c.isDigit = true ∨ c = '_'

instance : DecidablePred Variable.NameChar := fun c =>
  inferInstanceAs (Decidable (c.isLower = true ∨ c.isDigit = true ∨ c = '_'))

def Variable.WellNamed (v : Variable) : Prop := ∀ c ∈ v.name.toList, Variable.NameChar c

instance : DecidablePred Variable.WellNamed := fun v => List.decidableBAll Variable.NameChar v.name.toList

namespace Variable.NameChar

theorem toNat_lt {c : Char} (h : Variable.NameChar c) : c.toNat < 128 := by
  rcases h with h | h | rfl
  · change (decide ('a'.val ≤ c.val) && decide (c.val ≤ 'z'.val)) = true at h
    simp only [Bool.and_eq_true, decide_eq_true_eq] at h
    exact Nat.lt_of_le_of_lt (UInt32.le_iff_toNat_le.1 h.2) (by decide)
  · simp only [Char.isDigit, Bool.and_eq_true, decide_eq_true_eq] at h
    exact Nat.lt_of_le_of_lt (UInt32.le_iff_toNat_le.1 h.2) (by decide)
  · decide

/-- Upper case, character by character, and back: a table of 128 characters. -/
theorem cases_upper {c : Char} (h : Variable.NameChar c) : Text.upperChar c = [c.toUpper] ∧ c.toUpper.toLower = c := by
  have table : ∀ n : Fin 128, Variable.NameChar (Char.ofNat n) →
      Text.upperChar (Char.ofNat n) = [(Char.ofNat n).toUpper] ∧ (Char.ofNat n).toUpper.toLower = Char.ofNat n := by
    decide
  have hc := table ⟨c.toNat, h.toNat_lt⟩
  rw [Char.ofNat_toNat] at hc
  exact hc h

end Variable.NameChar

theorem Text.flatMap_upperChar : ∀ {l : List Char}, (∀ c ∈ l, Variable.NameChar c) →
    l.flatMap Text.upperChar = l.map Char.toUpper
  | [], _ => rfl
  | c :: l, h => by
    rw [List.flatMap_cons, (h c (by simp)).cases_upper.1, flatMap_upperChar fun d hd => h d (by simp [hd])]
    rfl

theorem Text.map_lower_upper : ∀ {l : List Char}, (∀ c ∈ l, Variable.NameChar c) →
    (l.map Char.toUpper).map Char.toLower = l
  | [], _ => rfl
  | c :: l, h => by
    rw [List.map_cons, List.map_cons, (h c (by simp)).cases_upper.2, map_lower_upper fun d hd => h d (by simp [hd])]

variable {s : String}

theorem Text.upper_eq_toUpper (h : ∀ c ∈ s.toList, Variable.NameChar c) : Text.upper s = s.toUpper := by
  show String.ofList (s.toList.flatMap Text.upperChar) = s.map Char.toUpper
  rw [← String.toList_inj, String.toList_ofList, Text.flatMap_upperChar h, String.toList_map]

/-- **Lower case undoes upper case on names of variables.** -/
theorem Text.lower_upper (h : ∀ c ∈ s.toList, Variable.NameChar c) : (Text.upper s).toLower = s := by
  rw [Text.upper_eq_toUpper h]
  show (s.map Char.toUpper).map Char.toLower = s
  rw [← String.toList_inj, String.toList_map, String.toList_map, Text.map_lower_upper h]

/-! ## The operator's own entries -/

def OtelConfig.names : List String := [
  "OTEL_EXPORTER_OTLP_ENDPOINT", "OTEL_EXPORTER_OTLP_TRACES_ENDPOINT",
  "OTEL_EXPORTER_OTLP_METRICS_ENDPOINT", "OTEL_EXPORTER_OTLP_LOGS_ENDPOINT"]

def App.reservedNames : List String := "SPIN_HTTP_LISTEN_ADDR" :: OtelConfig.names

inductive OtelConfig.Announces (o : OtelConfig) : EnvVar → Prop
  | common (h : o.endpoint ≠ "") : Announces o ⟨"OTEL_EXPORTER_OTLP_ENDPOINT", some o.endpoint, none⟩
  | traces (h : o.tracesEndpoint ≠ "") :
      Announces o ⟨"OTEL_EXPORTER_OTLP_TRACES_ENDPOINT", some o.tracesEndpoint, none⟩
  | metrics (h : o.metricsEndpoint ≠ "") :
      Announces o ⟨"OTEL_EXPORTER_OTLP_METRICS_ENDPOINT", some o.metricsEndpoint, none⟩
  | logs (h : o.logsEndpoint ≠ "") : Announces o ⟨"OTEL_EXPORTER_OTLP_LOGS_ENDPOINT", some o.logsEndpoint, none⟩

def OtelConfig.entries (otel : Option OtelConfig) : List EnvVar :=
  (((otel.map OtelConfig.endpoints).getD []).filter fun e => !e.2.isEmpty).map fun e => .ofValue e.1 e.2

theorem OtelConfig.mem_entries_iff {e : EnvVar} {otel : Option OtelConfig} : e ∈ OtelConfig.entries otel ↔
    ∃ o ∈ otel, ∃ p ∈ o.endpoints, p.2 ≠ "" ∧ EnvVar.ofValue p.1 p.2 = e := by
  cases otel with
  | none => simp [OtelConfig.entries]
  | some o => simp [OtelConfig.entries, and_assoc]

theorem OtelConfig.mem_entries {e : EnvVar} {otel : Option OtelConfig} :
    e ∈ OtelConfig.entries otel ↔ ∃ o ∈ otel, o.Announces e := by
  rw [OtelConfig.mem_entries_iff]
  refine exists_congr fun o => and_congr_right fun _ => ⟨?_, ?_⟩
  · rintro ⟨p, hp, hne, rfl⟩
    simp only [OtelConfig.endpoints, List.mem_cons, List.not_mem_nil, or_false] at hp
    rcases hp with rfl | rfl | rfl | rfl
    · exact .common hne
    · exact .traces hne
    · exact .metrics hne
    · exact .logs hne
  · rintro (h | h | h | h)
    · exact ⟨("OTEL_EXPORTER_OTLP_ENDPOINT", _), by simp [OtelConfig.endpoints], h, rfl⟩
    · exact ⟨("OTEL_EXPORTER_OTLP_TRACES_ENDPOINT", _), by simp [OtelConfig.endpoints], h, rfl⟩
    · exact ⟨("OTEL_EXPORTER_OTLP_METRICS_ENDPOINT", _), by simp [OtelConfig.endpoints], h, rfl⟩
    · exact ⟨("OTEL_EXPORTER_OTLP_LOGS_ENDPOINT", _), by simp [OtelConfig.endpoints], h, rfl⟩

theorem OtelConfig.entries_names (otel : Option OtelConfig) :
    ((OtelConfig.entries otel).map EnvVar.name).Sublist OtelConfig.names := by
  cases otel with
  | none => exact List.nil_sublist _
  | some o =>
    have h : o.endpoints.map Prod.fst = OtelConfig.names := rfl
    rw [← h, OtelConfig.entries, List.map_map]
    exact List.filter_sublist.map Prod.fst

theorem App.reservedNames_nodup : App.reservedNames.Nodup := by decide

/-! ## Names in the environment -/

theorem App.environment_eq (a : App) (otel : Option OtelConfig) : a.environment otel =
    a.spec.vars.map Variable.toEnv ++ .ofValue "SPIN_HTTP_LISTEN_ADDR" "0.0.0.0:80" :: OtelConfig.entries otel := by
  rw [App.environment, List.append_assoc]
  rfl

theorem App.own_names (otel : Option OtelConfig) :
    ((EnvVar.ofValue "SPIN_HTTP_LISTEN_ADDR" "0.0.0.0:80" :: OtelConfig.entries otel).map EnvVar.name).Sublist
      App.reservedNames :=
  (OtelConfig.entries_names otel).cons_cons _

theorem reserved_not_prefixed : ∀ n ∈ App.reservedNames, ¬ variablePrefix.toList <+: n.toList := by decide

theorem prefix_toList (n : String) : variablePrefix.toList <+: (variablePrefix ++ n).toList := by
  rw [String.toList_append]
  exact List.prefix_append ..

theorem prefixed_not_reserved (n : String) : variablePrefix ++ n ∉ App.reservedNames :=
  fun h => reserved_not_prefixed _ h (prefix_toList n)

/-- Nothing but two variables of one upper case can meet in an environment. -/
theorem App.environment_nodup_iff (a : App) (otel : Option OtelConfig) :
    ((a.environment otel).map EnvVar.name).Nodup ↔ (a.spec.vars.map fun v => Text.upper v.name).Nodup := by
  have hvars : (a.spec.vars.map Variable.toEnv).map EnvVar.name =
      (a.spec.vars.map fun v => Text.upper v.name).map (variablePrefix ++ ·) := by
    rw [List.map_map, List.map_map]
    rfl
  have hinj : Function.Injective (variablePrefix ++ ·) := fun x y h => by simpa using h
  rw [App.environment_eq, List.map_append, List.nodup_append, hvars, List.nodup_map_iff hinj]
  refine and_iff_left ⟨App.reservedNames_nodup.sublist (App.own_names otel), fun n hn m hm => ?_⟩
  obtain ⟨u, -, rfl⟩ := List.mem_map.1 hn
  rintro rfl
  exact prefixed_not_reserved u ((App.own_names otel).subset hm)

theorem App.upper_nodup {a : App} (hd : (a.spec.vars.map Variable.name).Nodup)
    (hn : ∀ v ∈ a.spec.vars, v.WellNamed) : (a.spec.vars.map fun v => Text.upper v.name).Nodup := by
  have hback : (a.spec.vars.map fun v => Text.upper v.name).map String.toLower = a.spec.vars.map Variable.name := by
    rw [List.map_map]
    exact List.map_congr_left fun v hv => Text.lower_upper (hn v hv)
  exact .of_map String.toLower (hback ▸ hd)

/-! ## Reading it back -/

/-- The variable that an entry of the environment stands for, if it stands for one. -/
def EnvVar.declared? (e : EnvVar) : Option Variable :=
  if variablePrefix.toList <+: e.name.toList then
    some ⟨(String.ofList (e.name.toList.drop variablePrefix.length)).toLower, e.value, e.valueFrom⟩
  else none

theorem Variable.declared?_toEnv {v : Variable} (h : v.WellNamed) : v.toEnv.declared? = some v := by
  have hdrop :
      (variablePrefix ++ Text.upper v.name).toList.drop variablePrefix.length = (Text.upper v.name).toList := by
    rw [String.toList_append]
    exact List.drop_left
  rw [EnvVar.declared?, Variable.toEnv, if_pos (prefix_toList _), hdrop, String.ofList_toList, Text.lower_upper h]

theorem EnvVar.declared?_of_reserved {e : EnvVar} (h : e.name ∈ App.reservedNames) : e.declared? = none :=
  if_neg (reserved_not_prefixed _ h)

theorem App.filterMap_environment {a : App} (hn : ∀ v ∈ a.spec.vars, v.WellNamed) (otel : Option OtelConfig) :
    (a.environment otel).filterMap EnvVar.declared? = a.spec.vars := by
  have hown : (EnvVar.ofValue "SPIN_HTTP_LISTEN_ADDR" "0.0.0.0:80" :: OtelConfig.entries otel).filterMap
      EnvVar.declared? = [] :=
    List.filterMap_eq_nil_iff.2 fun e he =>
      EnvVar.declared?_of_reserved ((App.own_names otel).subset (List.mem_map_of_mem he))
  rw [App.environment_eq, List.filterMap_append, hown, List.append_nil, List.filterMap_map]
  exact (List.filterMap_congr fun v hv => Variable.declared?_toEnv (hn v hv)).trans List.filterMap_some

/-- What an environment has to be for variables to arrive in it, beside the endpoints of an executor. -/
structure App.Carries (env : List EnvVar) (vars : List Variable) (otel : Option OtelConfig) : Prop where
  /-- No entry hides another. -/
  nodup : (env.map EnvVar.name).Nodup
  /-- Each variable has its place, under a name of its own that leads back to it. -/
  placed : ∀ (i : Nat) (v : Variable), vars[i]? = some v →
    env[i]? = some ⟨"SPIN_VARIABLE_" ++ v.name.toUpper, v.value, v.valueFrom⟩ ∧
    v.name.toUpper.toLower = v.name ∧ "SPIN_VARIABLE_" ++ v.name.toUpper ∉ App.reservedNames
  /-- The address and the endpoints that are set come last, the endpoints in the order of their names. -/
  own : ∃ entries : List EnvVar,
    env.drop vars.length = ⟨"SPIN_HTTP_LISTEN_ADDR", some "0.0.0.0:80", none⟩ :: entries ∧
    (entries.map EnvVar.name).Sublist OtelConfig.names ∧ ∀ e, e ∈ entries ↔ ∃ o ∈ otel, o.Announces e
  /-- The environment read back. -/
  back : env.filterMap EnvVar.declared? = vars

/-- **The environment of an app carries its variables.**  Different variables with names of the documented characters
stay different and keep clear of the operator's own names, whatever the endpoints. -/
theorem App.environment_lossless {a : App} (hd : (a.spec.vars.map Variable.name).Nodup)
    (hn : ∀ v ∈ a.spec.vars, v.WellNamed) (otel : Option OtelConfig) :
    App.Carries (a.environment otel) a.spec.vars otel where
  nodup := (a.environment_nodup_iff otel).2 (App.upper_nodup hd hn)
  placed i v hi := by
    have hv : v.WellNamed := hn v (List.mem_of_getElem? hi)
    rw [← Text.upper_eq_toUpper hv]
    refine ⟨?_, Text.lower_upper hv, prefixed_not_reserved _⟩
    rw [App.environment_eq, List.getElem?_append_left (by simpa using (List.getElem?_eq_some_iff.1 hi).1),
      List.getElem?_map, hi]
    rfl
  own := by
    refine ⟨OtelConfig.entries otel, ?_, OtelConfig.entries_names otel, fun e => OtelConfig.mem_entries⟩
    rw [App.environment_eq]
    exact List.drop_left' (List.length_map _)
  back := App.filterMap_environment hn otel

/-- An app of three variables with names that are close, one of them with its value elsewhere. -/
def Sample.withVariables : App where
  metadata := Sample.metadata "hello"
  spec := { AppSpec.ofImage "example" with
    vars := [⟨"a_b", some "1", none⟩, ⟨"ab", none, some ⟨none, some ⟨"store", "ab", none⟩, .empty⟩⟩,
      ⟨"ab1", some "", none⟩] }
  status := none

theorem App.environment_withVariables : (Sample.withVariables.spec.vars.map Variable.name).Nodup ∧
    (∀ v ∈ Sample.withVariables.spec.vars, v.WellNamed) ∧
    App.Carries (Sample.withVariables.environment (some ⟨"http://otel:4318", "", "", "http://logs:4318"⟩))
      Sample.withVariables.spec.vars (some ⟨"http://otel:4318", "", "", "http://logs:4318"⟩) :=
  ⟨by decide, by decide, App.environment_lossless (by decide) (by decide) _⟩

end SpinFleet
