import Ensemble.Proofs.Settings.Names

/-!
# Settings, field by field

What is loaded is four decisions that know nothing of each other: `deciding?` is the value that
decides about one setting, and the settings are what these values mean, if all of them mean
anything. Names are compared in the lower case of `Text.lower`, which is the usual one as long as
no capital sigma ends a word in the name of a family or of a variable.
-/

namespace Ensemble.Settings

/-! ## Fields -/

/-- The settings one by one. -/
inductive Setting where
  | defaultMaxRounds
  | delegationTimeoutMs
  | debateRounds
  | logJson
deriving DecidableEq

namespace Setting

/-- The name of a setting in files. -/
def name : Setting → String
  | defaultMaxRounds => "default_max_rounds"
  | delegationTimeoutMs => "delegation_timeout_ms"
  | debateRounds => "debate_rounds"
  | logJson => "log_json"

/-- The name of the variable that stands for a setting in a family. -/
def variableName (family : String) (f : Setting) : String := family ++ "_" ++ f.name

/-- What a setting can be. -/
def Meaning : Setting → Type
  | defaultMaxRounds | delegationTimeoutMs | debateRounds => UInt64
  | logJson => Bool

instance : (f : Setting) → DecidableEq f.Meaning
  | defaultMaxRounds | delegationTimeoutMs | debateRounds => inferInstanceAs (DecidableEq UInt64)
  | logJson => inferInstanceAs (DecidableEq Bool)

/-- The setting among all settings. -/
def get (settings : EngineSettings) : (f : Setting) → f.Meaning
  | defaultMaxRounds => settings.defaultMaxRounds
  | delegationTimeoutMs => settings.delegationTimeoutMs
  | debateRounds => settings.debateRounds
  | logJson => settings.logJson

/-- The meaning of a value for a setting. -/
def read? : (f : Setting) → Value → Option f.Meaning
  | defaultMaxRounds | delegationTimeoutMs | debateRounds => Value.word?
  | logJson => Value.flag?

/-- What a setting becomes by the value that decides about it, if there is one. -/
def settle? (f : Setting) : Option Value → Option f.Meaning
  | some v => f.read? v
  | none => some (f.get {})

/-- All settings from their meanings. -/
def collect (m : (f : Setting) → f.Meaning) : EngineSettings where
  defaultMaxRounds := m defaultMaxRounds
  delegationTimeoutMs := m delegationTimeoutMs
  debateRounds := m debateRounds
  logJson := m logJson

@[simp] theorem get_collect (m : (f : Setting) → f.Meaning) (f : Setting) :
    f.get (collect m) = m f := by
  cases f <;> rfl

theorem lower_name (f : Setting) : Text.lower f.name = f.name := by
  cases f <;> decide +kernel

theorem ascii_name (f : Setting) : ∀ x ∈ f.name.toList, 0 < x.toNat ∧ x.toNat < 128 := by
  have hall : f.name.toList.all (fun x => 0 < x.toNat && x.toNat < 128) = true := by
    cases f <;> decide
  simpa using hall

theorem toList_lower_variableName (family : String) (f : Setting) :
    (Text.lower (f.variableName family)).toList =
      (Text.lower family).toList ++ '_' :: f.name.toList := by
  have hunderscore : Text.lowerChar '_' = ['_'] := by decide
  have hname : f.name.toList.flatMap Text.lowerChar = f.name.toList := by
    rw [← Text.toList_lower, lower_name]
  simp [variableName, Text.toList_lower, hunderscore, hname]

end Setting

/-! ## Layers -/

theorem settle?_findSome? (layers : List Layer) (f : Setting) :
    f.settle? (layers.findSome? (·.find? f.name)) =
      resolve? layers f.name f.read? (f.get {}) := by
  rw [resolve?]
  cases layers.findSome? (·.find? f.name) <;> rfl

/-- The settings of layers are settled one by one. -/
theorem ofLayers?_eq_some_iff {layers : List Layer} {settings : EngineSettings} :
    EngineSettings.ofLayers? layers = some settings ↔
      ∀ f : Setting, f.settle? (layers.findSome? (·.find? f.name)) = some (f.get settings) := by
  simp only [settle?_findSome?, EngineSettings.ofLayers?, Option.bind_eq_bind,
    Option.bind_eq_some_iff, Option.some.injEq]
  constructor
  · rintro ⟨_, hmax, _, htimeout, _, hdebate, _, hjson, rfl⟩ f
    cases f with
    | defaultMaxRounds => exact hmax
    | delegationTimeoutMs => exact htimeout
    | debateRounds => exact hdebate
    | logJson => exact hjson
  · intro h
    exact ⟨_, h .defaultMaxRounds, _, h .delegationTimeoutMs, _, h .debateRounds, _, h .logJson,
      rfl⟩

/-- Where no two entries satisfy a condition, the last one that does is the first one. -/
theorem getLast?_filter {α : Type} {p : α → Bool} {l : List α}
    (h : l.Pairwise fun a b => p a = true → ¬p b = true) : (l.filter p).getLast? = l.find? p := by
  induction l with
  | nil => rfl
  | cons a l ih =>
    rw [List.pairwise_cons] at h
    cases ha : p a with
    | true =>
      have hnone : l.filter p = [] := by
        rw [List.filter_eq_nil_iff]
        exact fun b hb => h.1 b hb ha
      simp [ha, hnone]
    | false => simpa [ha] using ih h.2

theorem find?_ofEntries {entries : List (String × Value)} (hplain : ∀ e ∈ entries, Plain e.1)
    (hdiffer : entries.Pairwise fun e e' => Text.lower e.1 ≠ Text.lower e'.1) (name : String) :
    (Layer.ofEntries entries).find? name =
      (entries.find? fun e => Text.lower e.1 = name).map (·.2) := by
  have hentries : Layer.ofEntries entries = entries.map fun e => (Text.lower e.1, e.2) := by
    refine List.map_congr_left fun e he => ?_
    simp [Key.parse_of_plain (hplain e he).lower]
  have hsingle : entries.Pairwise fun e e' =>
      decide (Text.lower e.1 = name) = true → ¬decide (Text.lower e'.1 = name) = true :=
    hdiffer.imp fun hne h h' => hne (by simp_all)
  rw [hentries, Layer.find?, List.filter_map, List.getLast?_map, Option.map_map]
  simp only [Function.comp_def]
  rw [getLast?_filter hsingle]

/-- A variable belongs to a family. -/
def Prefixed (family name : String) : Prop :=
  (Text.lower (family ++ "_")).toList <+: (Text.lower name).toList

instance (family name : String) : Decidable (Prefixed family name) :=
  inferInstanceAs (Decidable (_ <+: _))

theorem prefixed_of_settingOf? {family name k : String} (h : settingOf? family name = some k) :
    Prefixed family name := by
  have hunderscore : Text.lowerChar '_' = ['_'] := by decide
  rw [settingOf?_eq_some] at h
  refine ⟨k.toList, ?_⟩
  rw [h]
  simp [Text.toList_lower, hunderscore]

/-- What follows the family in a plain name is a key without a path, and it is the name of a setting
if the whole is the name of the variable of this setting. -/
theorem parse_of_settingOf? {family name k : String} (hplain : Plain name)
    (hk : settingOf? family name = some k) (f : Setting) :
    Key.parse k = ⟨Text.lower k, false⟩ ∧
      (Text.lower k = f.name ↔ Text.lower name = Text.lower (f.variableName family)) := by
  rw [settingOf?_eq_some] at hk
  have hmem {c : Char} (hc : c ∈ k.toList) : c ∈ (Text.lower name).toList := by
    rw [hk]
    exact List.mem_append_right _ (List.mem_cons_of_mem _ hc)
  have hplainKey : Plain k :=
    ⟨fun hdot => hplain.lower.1 (hmem hdot), fun hbracket => hplain.lower.2 (hmem hbracket)⟩
  have hcapital : ∀ c ∈ k.toList, ¬Text.IsCapital c.toNat := by
    intro c hc
    have hlowered := hmem hc
    rw [Text.toList_lower, List.mem_flatMap] at hlowered
    obtain ⟨_, -, hlowered⟩ := hlowered
    exact Text.not_isCapital_of_mem hlowered
  -- The key is in lower case already, but lower-casing twice is not known to be lower-casing once:
  -- it is for what becomes the name of a setting.
  have hname : Text.lower k = f.name ↔ k = f.name := by
    constructor
    · intro h
      rw [← String.toList_inj, Text.toList_lower] at h
      exact String.toList_inj.mp (Text.eq_of_lower_eq hcapital f.ascii_name h)
    · rintro rfl
      exact f.lower_name
  have hvariable : Text.lower name = Text.lower (f.variableName family) ↔ k = f.name := by
    rw [← String.toList_inj, hk, f.toList_lower_variableName]
    simp [String.toList_inj]
  exact ⟨Key.parse_of_plain hplainKey.lower, hname.trans hvariable.symm⟩

theorem filter_environmentLayer {family : String} {env : Environment}
    (hplain : ∀ v ∈ env, Prefixed family v.1 → Plain v.1) (f : Setting) :
    (environmentLayer family env).filter (fun e => e.1 = f.name) =
      (env.filter fun v => Text.lower v.1 = Text.lower (f.variableName family)).map
        fun v => (f.name, .ofVariable v.2) := by
  induction env with
  | nil => rfl
  | cons v env ih =>
    have hrest := ih fun w hw => hplain w (List.mem_cons_of_mem _ hw)
    cases hk : settingOf? family v.1 with
    | none =>
      have hne : Text.lower v.1 ≠ Text.lower (f.variableName family) := by
        intro heq
        rw [← String.toList_inj, f.toList_lower_variableName, ← settingOf?_eq_some, hk] at heq
        cases heq
      have hlayer : environmentLayer family (v :: env) = environmentLayer family env := by
        simp [environmentLayer, hk]
      rw [hlayer, hrest]
      simp [hne]
    | some k =>
      obtain ⟨hkey, hname⟩ := parse_of_settingOf?
        (hplain v List.mem_cons_self (prefixed_of_settingOf? hk)) hk f
      have hlayer : environmentLayer family (v :: env) =
          (Text.lower k, .ofVariable v.2) :: environmentLayer family env := by
        simp [environmentLayer, Layer.ofEntries, hk, hkey]
      rw [hlayer, List.filter_cons, List.filter_cons, hrest]
      by_cases h : Text.lower k = f.name
      · simp [h, hname.mp h]
      · simp [h, mt hname.mpr h]

theorem find?_environmentLayer {family : String} {env : Environment}
    (hplain : ∀ v ∈ env, Prefixed family v.1 → Plain v.1)
    (hdiffer : env.Pairwise fun v w => Prefixed family v.1 → Text.lower v.1 ≠ Text.lower w.1)
    (f : Setting) :
    (environmentLayer family env).find? f.name =
      (env.find? fun v => Text.lower v.1 = Text.lower (f.variableName family)).map
        fun v => .ofVariable v.2 := by
  have hprefixed {name : String} (h : Text.lower name = Text.lower (f.variableName family)) :
      Prefixed family name := by
    rw [← String.toList_inj, f.toList_lower_variableName, ← settingOf?_eq_some] at h
    exact prefixed_of_settingOf? h
  have hsingle : env.Pairwise fun v w =>
      decide (Text.lower v.1 = Text.lower (f.variableName family)) = true →
        ¬decide (Text.lower w.1 = Text.lower (f.variableName family)) = true := by
    refine hdiffer.imp fun hne h h' => ?_
    rw [decide_eq_true_eq] at h h'
    exact hne (hprefixed h) (h.trans h'.symm)
  rw [Layer.find?, filter_environmentLayer hplain, List.getLast?_map, Option.map_map,
    getLast?_filter hsingle]
  rfl

/-! ## Sources -/

/-- The assignments of the file that a path means, as its text has them. -/
def fileEntries? (d : Directory) (path : String) : Option (List (String × Value)) := do
  let (format, text) ← findFile? d path
  let cs := text.toList
  let text := if cs.head? = some '\ufeff' then String.ofList (cs.drop 1) else text
  format.entries? text

theorem fileLayer?_eq (d : Directory) (path : String) :
    fileLayer? d path = (fileEntries? d path).map .ofEntries := by
  simp only [fileLayer?, fileEntries?, Option.bind_eq_bind]
  cases findFile? d path <;> rfl

/-- The assignments of the settings file: none if there is to be no file. -/
def Opens (d : Directory) : Option String → List (String × Value) → Prop
  | none, file => file = []
  | some path, file => fileEntries? d path = some file

/-- Where settings come from: the file loads, and in the file as among the variables of the family
the names are plain and no two of them are the same in lower case. -/
structure Sources (family : String) (path : Option String) (s : Surroundings)
    (file : List (String × Value)) : Prop where
  opens : Opens s.directory path file
  plain_keys : ∀ e ∈ file, Plain e.1
  keys_differ : file.Pairwise fun e e' => Text.lower e.1 ≠ Text.lower e'.1
  plain_variables : ∀ v ∈ s.environment, Prefixed family v.1 → Plain v.1
  variables_differ : s.environment.Pairwise fun v w =>
    Prefixed family v.1 → Text.lower v.1 ≠ Text.lower w.1

/-- The value that decides about a setting: that of its variable, or else that of its key in the
file. -/
def deciding? (family : String) (env : Environment) (file : List (String × Value))
    (f : Setting) : Option Value :=
  ((env.find? fun v => Text.lower v.1 = Text.lower (f.variableName family)).map
    fun v => .ofVariable v.2) <|>
  (file.find? fun e => Text.lower e.1 = f.name).map (·.2)

section Loading

open EngineSettings

variable {family : String} {path : Option String} {s : Surroundings} {file : List (String × Value)}

theorem loadFamily_eq (h : Opens s.directory path file) :
    loadFamily family path s = loadFamily.decide
      (ofLayers? [environmentLayer family s.environment, .ofEntries file]) := by
  cases path with
  | none =>
    -- Without a file there is one layer less, which is as good as an empty one.
    obtain rfl : file = [] := h
    have hfind (name : String) :
        [environmentLayer family s.environment].findSome? (·.find? name) =
          [environmentLayer family s.environment, .ofEntries []].findSome? (·.find? name) := by
      simp only [List.findSome?_cons]
      cases (environmentLayer family s.environment).find? name <;> rfl
    have hempty : ofLayers? [environmentLayer family s.environment] =
        ofLayers? [environmentLayer family s.environment, .ofEntries []] := by
      ext settings
      simp only [ofLayers?_eq_some_iff, hfind]
    exact congrArg loadFamily.decide hempty
  | some path =>
    have hopens : fileEntries? s.directory path = some file := h
    simp only [loadFamily, fileLayer?_eq, hopens, Option.map_some]

theorem Sources.findSome? (h : Sources family path s file) (f : Setting) :
    [environmentLayer family s.environment, .ofEntries file].findSome? (·.find? f.name) =
      deciding? family s.environment file f := by
  simp only [List.findSome?_cons, List.findSome?_nil, deciding?,
    find?_environmentLayer h.plain_variables h.variables_differ,
    find?_ofEntries h.plain_keys h.keys_differ]
  cases s.environment.find? fun v => Text.lower v.1 = Text.lower (f.variableName family) with
  | none => cases file.find? fun e => Text.lower e.1 = f.name <;> rfl
  | some v => rfl

theorem Sources.loadFamily_eq_ok_iff {settings : EngineSettings}
    (h : Sources family path s file) : loadFamily family path s = .ok settings ↔
      ∀ f : Setting, f.settle? (deciding? family s.environment file f) = some (f.get settings) := by
  have hok (settings? : Option EngineSettings) :
      loadFamily.decide settings? = .ok settings ↔ settings? = some settings := by
    cases settings? <;> simp [loadFamily.decide]
  rw [loadFamily_eq h.opens, hok, ofLayers?_eq_some_iff]
  simp only [h.findSome?]

/-- Nothing but the deciding values decides, about an error no less than about the settings. -/
theorem Sources.loadFamily_congr {path' : Option String} {s' : Surroundings}
    {file' : List (String × Value)} (h : Sources family path s file)
    (h' : Sources family path' s' file')
    (hsame : ∀ f, deciding? family s.environment file f = deciding? family s'.environment file' f) :
    loadFamily family path s = loadFamily family path' s' := by
  have hlayers : ofLayers? [environmentLayer family s.environment, .ofEntries file] =
      ofLayers? [environmentLayer family s'.environment, .ofEntries file'] := by
    ext settings
    rw [ofLayers?_eq_some_iff, ofLayers?_eq_some_iff]
    simp only [h.findSome?, h'.findSome?, hsame]
  rw [loadFamily_eq h.opens, loadFamily_eq h'.opens, hlayers]

/-- Fewer variables and fewer keys are as good. -/
theorem Sources.of_sublist {path' : Option String} {s' : Surroundings}
    {file' : List (String × Value)} (h : Sources family path s file)
    (hopens : Opens s'.directory path' file') (hfile : file'.Sublist file)
    (henv : s'.environment.Sublist s.environment) : Sources family path' s' file' where
  opens := hopens
  plain_keys := fun e he => h.plain_keys e (hfile.subset he)
  keys_differ := h.keys_differ.sublist hfile
  plain_variables := fun v hv => h.plain_variables v (henv.subset hv)
  variables_differ := h.variables_differ.sublist henv

/-- An assignment that is about something else is not found. -/
theorem find?_insert_of_ne {α : Type} {e : String × α} {name : String}
    (h : Text.lower e.1 ≠ name) (l l' : List (String × α)) :
    (l ++ e :: l').find? (fun e => Text.lower e.1 = name) =
      (l ++ l').find? fun e => Text.lower e.1 = name := by
  simp [List.find?_append, h]

/-- **Settings resolve one by one.** A setting is what the variable of its name says, or else the
key in the file, or else the default; loading succeeds if and only if every value that decides means
something for its setting. No other variable and no other key of the file changes anything, and two
loadings that have the same word on a setting agree on it, whatever they have on the others. -/
theorem loadFamily_resolves (h : Sources family path s file) :
    (∀ settings, loadFamily family path s = .ok settings ↔
      ∀ f : Setting, f.settle? (deciding? family s.environment file f) = some (f.get settings)) ∧
    ((∃ settings, loadFamily family path s = .ok settings) ↔
      ∀ (f : Setting) v, deciding? family s.environment file f = some v → (f.read? v).isSome) ∧
    (∀ l v l', s.environment = l ++ v :: l' →
      (∀ f : Setting, Text.lower v.1 ≠ Text.lower (f.variableName family)) →
      loadFamily family path { s with environment := l ++ l' } = loadFamily family path s) ∧
    (∀ path' s' l e l', file = l ++ e :: l' → (∀ f : Setting, Text.lower e.1 ≠ f.name) →
      s'.environment = s.environment → Opens s'.directory path' (l ++ l') →
      loadFamily family path' s' = loadFamily family path s) ∧
    (∀ path' s' file', Sources family path' s' file' →
      ∀ (f : Setting) settings settings', loadFamily family path s = .ok settings →
        loadFamily family path' s' = .ok settings' →
        deciding? family s.environment file f = deciding? family s'.environment file' f →
        f.get settings = f.get settings') := by
  refine ⟨fun settings => h.loadFamily_eq_ok_iff, ?_, ?_, ?_, ?_⟩
  · constructor
    · rintro ⟨settings, hok⟩ f v hv
      have hsettled := h.loadFamily_eq_ok_iff.mp hok f
      rw [hv] at hsettled
      exact Option.isSome_of_eq_some hsettled
    · intro hall
      have hsettled (f : Setting) :
          (f.settle? (deciding? family s.environment file f)).isSome := by
        cases hv : deciding? family s.environment file f with
        | none => rfl
        | some v => exact hall f v hv
      refine ⟨Setting.collect fun f => (f.settle? _).get (hsettled f),
        h.loadFamily_eq_ok_iff.mpr fun f => ?_⟩
      simp
  · intro l v l' hsplit hother
    have hless : Sources family path { s with environment := l ++ l' } file :=
      h.of_sublist h.opens (.refl _) (hsplit ▸ (List.sublist_cons_self v l').append_left l)
    refine hless.loadFamily_congr h fun f => ?_
    rw [deciding?, deciding?, hsplit, find?_insert_of_ne (hother f)]
  · intro path' s' l e l' hsplit hother henv hopens
    have hless : Sources family path' s' (l ++ l') :=
      h.of_sublist hopens (hsplit ▸ (List.sublist_cons_self e l').append_left l)
        (henv ▸ .refl _)
    refine hless.loadFamily_congr h fun f => ?_
    rw [deciding?, deciding?, hsplit, henv, find?_insert_of_ne (hother f)]
  · intro path' s' file' h' f settings settings' hok hok' hsame
    have hsettled := h.loadFamily_eq_ok_iff.mp hok f
    have hsettled' := h'.loadFamily_eq_ok_iff.mp hok' f
    rw [hsame] at hsettled
    exact Option.some.inj (hsettled.symm.trans hsettled')

/-- A variable that makes sense stands over a key of the file that does not; a variable of another
family and a key of no setting stand beside them. -/
theorem loadFamily_resolves_app :
    let s : Surroundings :=
      { environment := [("App_Debate_Rounds", "5"), ("HOME", "/")]
        directory := [("app.ini", "debate_rounds = many\nLOG_JSON = on\ntheme = dark\n")] }
    Sources "APP" (some "app") s
      [("debate_rounds", .text "many"), ("LOG_JSON", .text "on"), ("theme", .text "dark")] ∧
    loadFamily "APP" (some "app") s = .ok { debateRounds := 5, logJson := true } := by
  intro s
  have hpath : "app".splitOn "/" = ["app"] := by
    rw [String.splitOn, if_neg (by decide)]
    iterate 4 rw [String.splitOnAux]
    decide +kernel
  have hname : "app.ini".splitOn "/" = ["app.ini"] := by
    rw [String.splitOn, if_neg (by decide)]
    iterate 8 rw [String.splitOnAux]
    decide +kernel
  have hfile (text : String) : findFile? [("app.ini", text)] "app" = some (.ini, text) := by
    simp [findFile?, Directory.read?, pathParts, hpath, hname, FileFormat.all,
      FileFormat.extensions]
  have hsources : Sources "APP" (some "app") s
      [("debate_rounds", .text "many"), ("LOG_JSON", .text "on"), ("theme", .text "dark")] :=
    { opens := by
        simp only [s, Opens, fileEntries?, hfile, Option.bind_eq_bind, Option.bind_some]
        decide +kernel
      plain_keys := by decide
      keys_differ := by decide
      plain_variables := by
        simp only [s, List.forall_mem_cons]
        decide
      variables_differ := by
        simp only [s, List.pairwise_cons, List.forall_mem_cons]
        decide }
  refine ⟨hsources, ((loadFamily_resolves hsources).1 _).mpr fun f => ?_⟩
  cases f <;> decide +kernel

end Loading

end Ensemble.Settings
