import Nvcr.MarkedTexts
import Nvcr.MlvcBundleLoading
import Nvcr.Sha256Digests

/-!
# The cache of compiled graphs

The file name of a compiled graph is a digest of the lines of everything that shapes it. The
values in these lines are not escaped, so a line break in a value can stand for the end of its
line.
-/

namespace Nvcr.Provider

open Sha256 (InputFile)

section Settings

/-- The levels with the numbers of the runtime's interface. -/
inductive GraphOptimizationLevel where
  | disableAll
  | enableBasic
  | enableExtended
  | enableAll
  deriving DecidableEq, Repr

def GraphOptimizationLevel.number : GraphOptimizationLevel → ℕ
  | .disableAll => 0
  | .enableBasic => 1
  | .enableExtended => 2
  | .enableAll => 99

def optimizationLevel (level : String) : Option GraphOptimizationLevel :=
  if level = "disable" then some .disableAll
  else if level = "basic" then some .enableBasic
  else if level = "extended" then some .enableExtended
  else if level = "all" then some .enableAll
  else none

/-- Assignment to a key of an ordered map. -/
def setOption (name value : String) : List (String × String) → List (String × String)
  | [] => [(name, value)]
  | (n, v) :: options =>
      if name.toList < n.toList then (name, value) :: (n, v) :: options
      else if name = n then (name, value) :: options
      else (n, v) :: setOption name value options

def qnnHtpBackend : String := "libQnnHtp.so"

structure QnnSettings where
  level : GraphOptimizationLevel := .enableAll
  options : List (String × String) := [("backend_path", qnnHtpBackend)]
  deriving DecidableEq, Repr

def sessionError (message : String) : Error :=
  ⟨.invalidArgument, message, "provider.onnxruntime"⟩

/-- One option of the descriptor. -/
def qnnOption (settings : QnnSettings) (option : String × String) : Result QnnSettings :=
  let (key, value) := option
  if ¬ "qnn.".toList <+: key.toList then .ok settings
  else
    let name := String.ofList (key.toList.drop 4)
    match (if name = "graph_optimization" then optimizationLevel value else none) with
    | some level => .ok { settings with level := level }
    | none =>
        if name = "htp_performance_mode" ∨ name = "htp_graph_finalization_optimization_mode" then
          .ok { settings with options := setOption name value settings.options }
        else .error (sessionError ("unsupported provider option: " ++ key ++ "=" ++ value))

/-- A variable of the environment overrides an option when it is set. -/
def override (name value : String) (settings : QnnSettings) : QnnSettings :=
  if value ≠ "" then { settings with options := setOption name value settings.options }
  else settings

/-- The settings of a stage from the options of its descriptor and the two variables. -/
def qnnSettings (providerOptions : List (String × String))
    (performanceMode finalizationMode : String) : Result QnnSettings := do
  let settings ← providerOptions.foldlM qnnOption {}
  .ok (override "htp_graph_finalization_optimization_mode" finalizationMode
    (override "htp_performance_mode" performanceMode settings))

end Settings

section Key

/-- The bytes before the length of a file name in the model. -/
def locationMarker : Bytes := [0x0a, 0x08] ++ Mlvc.textBytes "location" ++ [0x12]

def byteText (bytes : Bytes) : String := String.ofList (bytes.map fun b => Char.ofNat b.toNat)

/-- The file name after a marker at the start of `model`. -/
def externalName (model : Bytes) : Option String :=
  let start := locationMarker.length + 1
  if start > model.length then none
  else
    let length := (model.getD (start - 1) 0).toNat
    if length = 0 ∨ length ≥ 0x80 ∨ start + length > model.length then none
    else
      let name := byteText ((model.drop start).take length)
      if '/' ∈ name.toList ∨ '\\' ∈ name.toList ∨ "..".toList <+: name.toList then none
      else some name

/-- The search for markers from each position on. -/
def scanExternal : Bytes → List String → Option (List String)
  | [], files => some files
  | b :: model, files =>
      if locationMarker <+: b :: model then
        match externalName (b :: model) with
        | none => none
        | some name => scanExternal model (if name ∈ files then files else files ++ [name])
      else scanExternal model files

def externalDataFiles (model : Bytes) : Option (List String) := scanExternal model []

/-- What a call reads besides its settings: the version of the runtime, the identity of the
target, the configured directory and whether it exists after its creation, and the model with the
files beside it. -/
structure CacheHost where
  version : String
  identity : String
  configured : String
  ready : Bool
  model : InputFile
  siblings : String → InputFile

def optionLines (options : List (String × String)) : String :=
  options.foldl (fun key option => key ++ (option.1 ++ "=" ++ option.2 ++ "\n")) ""

/-- The lines of the external files, if each of them can be read. -/
def dataLines (siblings : String → InputFile) : List String → Option String
  | [] => some ""
  | name :: names =>
      match sha256File siblings name "provider.onnxruntime" with
      | .error _ => none
      | .ok digest => (dataLines siblings names).map (name ++ "=" ++ digest ++ "\n" ++ ·)

/-- The text that the name of the compiled graph is the digest of. -/
def contextKey (host : CacheHost) (settings : QnnSettings) : Option String :=
  if host.configured = "off" ∨ host.identity = "" ∨ ¬ host.ready ∨ ¬ host.model.opens then none
  else
    match externalDataFiles host.model.content with
    | none => none
    | some names =>
        (dataLines host.siblings names).map fun lines =>
          "onnxruntime=" ++ host.version ++ "\n" ++
          "graph=" ++ toString settings.level.number ++ "\n" ++ host.identity ++
          "model=" ++ sha256Text host.model.content ++ "\n" ++ optionLines settings.options ++ lines

def contextCachePath (host : CacheHost) (componentId bundle : String) (settings : QnnSettings) :
    Option String :=
  (contextKey host settings).map fun key =>
    let directory := if host.configured = "" then Artifacts.joinPath bundle ".nvcr-cache"
      else host.configured
    Artifacts.joinPath directory (componentId ++ "-" ++
      String.ofList ((sha256Text (Mlvc.textBytes key)).toList.take 32) ++ ".onnx")

end Key

section Digests

/-- What is hashed on the way to the key. -/
def hashedBy (host : CacheHost) : List Bytes :=
  host.model.content ::
    ((externalDataFiles host.model.content).getD []).map fun name => (host.siblings name).content

/-- No two of the texts that the two calls hash have the same digest. -/
def NoCollision (host host' : CacheHost) : Prop :=
  ∀ x ∈ hashedBy host ++ hashedBy host', ∀ y ∈ hashedBy host ++ hashedBy host',
    sha256Text x = sha256Text y → x = y

theorem toHex_length (digest : Bytes) : (Sha256.toHex digest).toList.length = 2 * digest.length := by
  rw [Sha256.toHex, String.toList_ofList, List.length_flatMap]
  simp [Nat.mul_comm]

theorem sha256Text_length (text : Bytes) : (sha256Text text).toList.length = 64 := by
  rw [sha256Text, toHex_length]
  simp [Sha256.finish, Sha256.digest]

theorem notMem_toHex {c : Char} (hc : ∀ n < 16, Nat.digitChar n ≠ c) (digest : Bytes) :
    c ∉ (Sha256.toHex digest).toList := by
  intro hmem
  rw [Sha256.toHex, String.toList_ofList, List.mem_flatMap] at hmem
  obtain ⟨byte, -, hmem⟩ := hmem
  have hbyte := byte.toNat_lt
  rcases List.mem_cons.mp hmem with h | h
  · exact hc _ (by omega) h.symm
  · exact hc _ (by omega) (List.mem_singleton.mp h).symm

/-- A digest of a file is that of its bytes. -/
theorem sha256File_ok {files : String → InputFile} {path subsystem digest : String}
    (h : sha256File files path subsystem = .ok digest) :
    digest = sha256Text (files path).content := by
  by_cases hreadable : (files path).Readable
  · obtain ⟨hash, hhash, habsorbed⟩ := Sha256.hashFiles_absorbed files subsystem
      Sha256.absorbed_initial [path] fun other hother => by rwa [List.mem_singleton.mp hother]
    have hbytes : [] ++ List.flatMap (fun path => (files path).content) [path] =
        [] ++ (files path).content := by
      simp
    have hfinish : hash.finish = (({} : Sha256).update (files path).content).finish := by
      rw [Sha256.finish_eq habsorbed, Sha256.finish_eq (Sha256.absorbed_initial.update _), hbytes]
    rw [sha256File, sha256Files, hhash] at h
    have hdigest : Sha256.toHex hash.finish = digest := Except.ok.inj h
    rw [← hdigest, hfinish, sha256Text]
  · obtain ⟨e, he, -⟩ := Sha256.hashFiles_error files subsystem {} [path]
      ⟨path, List.mem_singleton_self path, hreadable⟩
    rw [sha256File, sha256Files, he] at h
    cases h

end Digests

section DataLines

/-- Lines of the same names have the same length. -/
theorem dataLines_length {siblings siblings' : String → InputFile} {names : List String}
    {lines lines' : String} (h : dataLines siblings names = some lines)
    (h' : dataLines siblings' names = some lines') :
    lines.toList.length = lines'.toList.length := by
  induction names generalizing lines lines' with
  | nil =>
      cases h
      cases h'
      rfl
  | cons name names ih =>
      simp only [dataLines] at h h'
      split at h
      · exact nomatch h
      rename_i digest hdigest
      split at h'
      · exact nomatch h'
      rename_i digest' hdigest'
      obtain ⟨rest, hrest, rfl⟩ := Option.map_eq_some_iff.mp h
      obtain ⟨rest', hrest', rfl⟩ := Option.map_eq_some_iff.mp h'
      have hlength := ih hrest hrest'
      rw [sha256File_ok hdigest, sha256File_ok hdigest']
      simp only [String.toList_append, List.length_append, sha256Text_length, hlength]

/-- Equal lines of the same names have the same digests. -/
theorem dataLines_digests {siblings siblings' : String → InputFile} {names : List String}
    {lines : String} (h : dataLines siblings names = some lines)
    (h' : dataLines siblings' names = some lines) {name : String} (hname : name ∈ names) :
    sha256Text (siblings name).content = sha256Text (siblings' name).content := by
  induction names generalizing lines with
  | nil => exact nomatch hname
  | cons first names ih =>
      simp only [dataLines] at h h'
      split at h
      · exact nomatch h
      rename_i digest hdigest
      split at h'
      · exact nomatch h'
      rename_i digest' hdigest'
      obtain ⟨rest, hrest, rfl⟩ := Option.map_eq_some_iff.mp h
      obtain ⟨rest', hrest', hlines⟩ := Option.map_eq_some_iff.mp h'
      rw [sha256File_ok hdigest, sha256File_ok hdigest', ← String.toList_inj] at hlines
      simp only [String.toList_append, List.append_assoc, List.append_cancel_left_eq] at hlines
      obtain ⟨hfirst, htail⟩ := List.append_inj hlines (by simp only [sha256Text_length])
      have hrests : rest' = rest := String.toList_inj.mp (List.append_cancel_left htail)
      rcases List.mem_cons.mp hname with rfl | hmem
      · exact (String.toList_inj.mp hfirst).symm
      · exact ih hrest (hrests ▸ hrest') hmem

end DataLines

section Options

/-- The option map with the values of the two modes that are set. -/
def optionMap (finalization performance : Option String) : List (String × String) :=
  ("backend_path", qnnHtpBackend) ::
    (finalization.toList.map fun value => ("htp_graph_finalization_optimization_mode", value)) ++
    performance.toList.map fun value => ("htp_performance_mode", value)

theorem setOption_same (name value v : String) (options : List (String × String)) :
    setOption name value ((name, v) :: options) = (name, value) :: options := by
  rw [setOption, if_neg (lt_irrefl _), if_pos rfl]

theorem setOption_before {name n : String} (h : name.toList < n.toList) (value v : String)
    (options : List (String × String)) :
    setOption name value ((n, v) :: options) = (name, value) :: (n, v) :: options := by
  rw [setOption, if_pos h]

theorem setOption_after {name n : String} (h : n.toList < name.toList) (value v : String)
    (options : List (String × String)) :
    setOption name value ((n, v) :: options) = (n, v) :: setOption name value options := by
  have hne : name ≠ n := by
    rintro rfl
    exact lt_irrefl _ h
  rw [setOption, if_neg (lt_asymm h), if_neg hne]

theorem backend_lt_finalization :
    "backend_path".toList < "htp_graph_finalization_optimization_mode".toList := by decide

theorem backend_lt_performance : "backend_path".toList < "htp_performance_mode".toList := by decide

theorem finalization_lt_performance :
    "htp_graph_finalization_optimization_mode".toList < "htp_performance_mode".toList := by decide

theorem setOption_finalization (value : String) (finalization performance : Option String) :
    setOption "htp_graph_finalization_optimization_mode" value
      (optionMap finalization performance) = optionMap (some value) performance := by
  rw [optionMap, List.cons_append, setOption_after backend_lt_finalization]
  cases finalization with
  | some v => exact congrArg (List.cons _) (setOption_same _ _ _ _)
  | none =>
      cases performance with
      | none => rfl
      | some v => exact congrArg (List.cons _) (setOption_before finalization_lt_performance _ _ _)

theorem setOption_performance (value : String) (finalization performance : Option String) :
    setOption "htp_performance_mode" value (optionMap finalization performance) =
      optionMap finalization (some value) := by
  have hlast : setOption "htp_performance_mode" value
      (performance.toList.map fun value => ("htp_performance_mode", value)) =
        [("htp_performance_mode", value)] := by
    cases performance with
    | none => rfl
    | some v => exact setOption_same _ _ _ _
  rw [optionMap, List.cons_append, setOption_after backend_lt_performance]
  cases finalization with
  | none => exact congrArg (List.cons _) hlast
  | some v =>
      refine congrArg (List.cons _) ?_
      exact (setOption_after finalization_lt_performance _ _ _).trans
        (congrArg (List.cons _) hlast)

/-- The options are those of two modes. -/
def HasModes (settings : QnnSettings) : Prop :=
  ∃ finalization performance, settings.options = optionMap finalization performance

theorem HasModes.set {settings : QnnSettings} (h : HasModes settings) {name value : String}
    (hname : name = "htp_performance_mode" ∨ name = "htp_graph_finalization_optimization_mode") :
    HasModes { settings with options := setOption name value settings.options } := by
  obtain ⟨finalization, performance, hoptions⟩ := h
  rcases hname with rfl | rfl
  · exact ⟨finalization, some value, by rw [hoptions, setOption_performance]⟩
  · exact ⟨some value, performance, by rw [hoptions, setOption_finalization]⟩

theorem HasModes.qnnOption {settings settings' : QnnSettings} (h : HasModes settings)
    {option : String × String} (hok : qnnOption settings option = .ok settings') :
    HasModes settings' := by
  obtain ⟨key, value⟩ := option
  simp only [Provider.qnnOption] at hok
  split at hok
  · cases hok
    exact h
  · split at hok
    · cases hok
      exact h
    · split at hok
      · rename_i hname
        cases hok
        exact h.set hname
      · exact nomatch hok

theorem HasModes.override {settings : QnnSettings} (h : HasModes settings) {name value : String}
    (hname : name = "htp_performance_mode" ∨ name = "htp_graph_finalization_optimization_mode") :
    HasModes (override name value settings) := by
  unfold Provider.override
  split
  · exact h.set hname
  · exact h

theorem hasModes_foldlM {providerOptions : List (String × String)} {settings settings' : QnnSettings}
    (h : HasModes settings) (hok : providerOptions.foldlM Provider.qnnOption settings = .ok settings') :
    HasModes settings' := by
  induction providerOptions generalizing settings with
  | nil =>
      cases hok
      exact h
  | cons option providerOptions ih =>
      rw [List.foldlM_cons] at hok
      cases hfirst : Provider.qnnOption settings option with
      | error e =>
          rw [hfirst] at hok
          exact nomatch hok
      | ok next =>
          rw [hfirst] at hok
          exact ih (h.qnnOption hfirst) hok

/-- Accepted settings have at most the two modes besides the backend. -/
theorem hasModes_of_accepted {providerOptions : List (String × String)}
    {performanceMode finalizationMode : String} {settings : QnnSettings}
    (h : qnnSettings providerOptions performanceMode finalizationMode = .ok settings) :
    HasModes settings := by
  unfold qnnSettings at h
  cases hloop : providerOptions.foldlM Provider.qnnOption {} with
  | error e =>
      rw [hloop] at h
      exact nomatch h
  | ok looped =>
      rw [hloop] at h
      cases h
      exact ((hasModes_foldlM ⟨none, none, rfl⟩ hloop).override (.inl rfl)).override (.inr rfl)

end Options

section Lines

def finalizationLine (value : String) : List Char :=
  "htp_graph_finalization_optimization_mode=".toList ++ (value.toList ++ ['\n'])

def performanceLine (value : String) : List Char :=
  "htp_performance_mode=".toList ++ (value.toList ++ ['\n'])

/-- The lines of the modes that are set. -/
def modeLines (finalization performance : Option String) : List Char :=
  finalization.elim [] finalizationLine ++ performance.elim [] performanceLine

theorem break_toList : "\n".toList = ['\n'] := by decide

theorem line_toList (key name value : String) :
    (key ++ (name ++ value ++ "\n")).toList =
      key.toList ++ (name.toList ++ (value.toList ++ ['\n'])) := by
  simp only [String.toList_append, break_toList, List.append_assoc]

theorem optionLines_optionMap (finalization performance : Option String) :
    (optionLines (optionMap finalization performance)).toList =
      "backend_path=libQnnHtp.so\n".toList ++ modeLines finalization performance := by
  have hbackend : ("" ++ ("backend_path" ++ "=" ++ qnnHtpBackend ++ "\n")) =
      "backend_path=libQnnHtp.so\n" := by
    decide
  have hfinalization : "htp_graph_finalization_optimization_mode" ++ "=" =
      "htp_graph_finalization_optimization_mode=" := by
    decide
  have hperformance : "htp_performance_mode" ++ "=" = "htp_performance_mode=" := by
    decide
  cases finalization <;> cases performance <;>
    simp only [optionLines, optionMap, Option.toList_none, Option.toList_some, List.map_nil,
      List.map_cons, List.append_nil, List.nil_append, List.cons_append, List.foldl_cons,
      List.foldl_nil, hbackend, hfinalization, hperformance, line_toList]
  · exact (List.append_nil _).symm
  · rfl
  · exact congrArg (List.append _) (List.append_nil _).symm
  · exact List.append_assoc _ _ _

/-- The text after the value of the first mode when the second one follows it. -/
def performanceMark : List Char := "\nhtp_performance_mode=".toList

theorem performanceMark_eq : performanceMark = '\n' :: "htp_performance_mode=".toList := by
  decide

theorem markers_performance : MarkedTexts.Markers (· = performanceMark) '\n' 22 where
  head := by
    rintro _ rfl
    exact ⟨_, performanceMark_eq, by decide⟩
  length := by
    rintro _ rfl
    decide

theorem finalizationLine_ne_performanceLine (value value' : String) (v v' : List Char) :
    finalizationLine value ++ v ≠ performanceLine value' ++ v' := by
  intro h
  have hfinalization : "htp_graph_finalization_optimization_mode=".toList =
      "htp_g".toList ++ "raph_finalization_optimization_mode=".toList := by
    decide
  have hperformance : "htp_performance_mode=".toList =
      "htp_p".toList ++ "erformance_mode=".toList := by
    decide
  unfold finalizationLine performanceLine at h
  rw [hfinalization, hperformance] at h
  simp only [List.append_assoc] at h
  have hlength : "htp_g".toList.length = "htp_p".toList.length := by decide
  exact absurd (List.append_inj h hlength).1 (by decide)

/-- The line of the second mode is the rest of its mark. -/
theorem performanceLine_eq (value : String) :
    '\n' :: performanceLine value = performanceMark ++ (value.toList ++ ['\n']) := by
  unfold performanceLine
  rw [performanceMark_eq, List.cons_append]

/-- Both lines end with their break. -/
theorem finalization_then_performance (value other : String) :
    finalizationLine value ++ performanceLine other =
      "htp_graph_finalization_optimization_mode=".toList ++
        (value.toList ++ (performanceMark ++ (other.toList ++ ['\n']))) := by
  unfold finalizationLine
  rw [← performanceLine_eq, List.append_assoc, List.append_assoc, List.singleton_append]

theorem mark_occurs {value value' other : String}
    (h : finalizationLine value = finalizationLine value' ++ performanceLine other) :
    performanceMark <:+: value.toList := by
  rw [finalization_then_performance] at h
  unfold finalizationLine at h
  have hvalue := List.append_cancel_left h
  rw [← List.append_assoc, ← List.append_assoc] at hvalue
  exact ⟨value'.toList, other.toList, by
    rw [List.append_cancel_right hvalue, List.append_assoc]⟩

theorem finalizationLine_inj {value value' : String}
    (h : finalizationLine value = finalizationLine value') : value = value' := by
  unfold finalizationLine at h
  exact String.toList_inj.mp (List.append_cancel_right (List.append_cancel_left h))

theorem performanceLine_ne_nil (value : String) : performanceLine value ≠ [] := by
  unfold performanceLine
  exact List.append_ne_nil_of_right_ne_nil _ (List.append_ne_nil_of_right_ne_nil _ (by decide))

theorem performanceLine_inj {value value' : String}
    (h : performanceLine value = performanceLine value') : value = value' := by
  unfold performanceLine at h
  exact String.toList_inj.mp (List.append_cancel_right (List.append_cancel_left h))

theorem performance_elim_inj {performance performance' : Option String}
    (h : performance.elim [] performanceLine = performance'.elim [] performanceLine) :
    performance = performance' := by
  cases performance with
  | none =>
      cases performance' with
      | none => rfl
      | some other' => exact absurd h.symm (performanceLine_ne_nil other')
  | some other =>
      cases performance' with
      | none => exact absurd h (performanceLine_ne_nil other)
      | some other' => exact congrArg some (performanceLine_inj h)

/-- The line of the first mode is not read as that of the second, or as no line. -/
theorem finalizationLine_ne_elim (value : String) (v : List Char) (performance : Option String) :
    finalizationLine value ++ v ≠ performance.elim [] performanceLine := by
  intro h
  cases performance with
  | none =>
      have hnil : finalizationLine value = [] := (List.append_eq_nil_iff.mp h).1
      unfold finalizationLine at hnil
      exact absurd (List.append_eq_nil_iff.mp (List.append_eq_nil_iff.mp hnil).2).2 (by decide)
  | some other =>
      exact finalizationLine_ne_performanceLine value other v [] (h.trans (List.append_nil _).symm)

/-- The lines determine the modes if the first value does not hold the mark of the second. -/
theorem modeLines_inj {finalization finalization' performance performance' : Option String}
    (hfree : ∀ value ∈ finalization, ¬ performanceMark <:+: value.toList)
    (hfree' : ∀ value ∈ finalization', ¬ performanceMark <:+: value.toList)
    (h : modeLines finalization performance = modeLines finalization' performance') :
    finalization = finalization' ∧ performance = performance' := by
  unfold modeLines at h
  cases finalization with
  | none =>
      cases finalization' with
      | none => exact ⟨rfl, performance_elim_inj h⟩
      | some value' => exact absurd h.symm (finalizationLine_ne_elim value' _ performance)
  | some value =>
      cases finalization' with
      | none => exact absurd h (finalizationLine_ne_elim value _ performance')
      | some value' =>
          rw [Option.elim_some, Option.elim_some] at h
          cases performance with
          | none =>
              rw [Option.elim_none, List.append_nil] at h
              cases performance' with
              | none =>
                  rw [Option.elim_none, List.append_nil] at h
                  exact ⟨congrArg some (finalizationLine_inj h), rfl⟩
              | some other' => exact absurd (mark_occurs h) (hfree value rfl)
          | some other =>
              cases performance' with
              | none =>
                  rw [Option.elim_none, List.append_nil] at h
                  exact absurd (mark_occurs h.symm) (hfree' value' rfl)
              | some other' =>
                  rw [Option.elim_some, Option.elim_some, finalization_then_performance,
                    finalization_then_performance] at h
                  obtain ⟨hvalue, -, hother⟩ := markers_performance.append_inj rfl rfl
                    (hfree value rfl) (hfree' value' rfl) (List.append_cancel_left h)
                  exact ⟨congrArg some (String.toList_inj.mp hvalue),
                    congrArg some (String.toList_inj.mp (List.append_cancel_right hother))⟩

end Lines

section Separation

def levelLine (level : GraphOptimizationLevel) : List Char :=
  ("graph=" ++ toString level.number).toList

theorem break_notMem_levelLine (level : GraphOptimizationLevel) : '\n' ∉ levelLine level := by
  cases level <;> decide

theorem levelLine_inj {level level' : GraphOptimizationLevel}
    (h : levelLine level = levelLine level') : level = level' := by
  revert h
  cases level <;> cases level' <;> decide

/-- The line of the model with the line of the backend behind it. -/
def modelMark (content : Bytes) : List Char :=
  "model=".toList ++ ((sha256Text content).toList ++ "\nbackend_path=libQnnHtp.so\n".toList)

theorem markers_model : MarkedTexts.Markers (fun mark => ∃ content, mark = modelMark content)
    'm' 97 where
  head := by
    rintro _ ⟨content, rfl⟩
    have hmodel : "model=".toList = 'm' :: "odel=".toList := by decide
    refine ⟨"odel=".toList ++ ((sha256Text content).toList ++
      "\nbackend_path=libQnnHtp.so\n".toList), by unfold modelMark; rw [hmodel, List.cons_append], ?_⟩
    intro hmem
    rcases List.mem_append.mp hmem with hmem | hmem
    · exact absurd hmem (by decide)
    · rcases List.mem_append.mp hmem with hmem | hmem
      · exact notMem_toHex (by decide) _ hmem
      · exact absurd hmem (by decide)
  length := by
    rintro _ ⟨content, rfl⟩
    have hmodel : "model=".toList.length = 6 := by decide
    have hbackend : "\nbackend_path=libQnnHtp.so\n".toList.length = 27 := by decide
    unfold modelMark
    rw [List.length_append, List.length_append, sha256Text_length, hmodel, hbackend]

theorem modelMark_digest {content content' : Bytes} (h : modelMark content = modelMark content') :
    sha256Text content = sha256Text content' := by
  unfold modelMark at h
  exact String.toList_inj.mp (List.append_cancel_right (List.append_cancel_left h))

/-- No part of the version, the identity or the first mode reads as the next line of the key. -/
structure Separable (host : CacheHost) (settings : QnnSettings) : Prop where
  version : ∀ level, MarkedTexts.LineFollows '\n' host.version.toList (levelLine level)
  identity : ∀ content, ¬ modelMark content <:+: host.identity.toList
  finalization : ∀ value, ("htp_graph_finalization_optimization_mode", value) ∈ settings.options →
    ¬ performanceMark <:+: value.toList

/-- The parts of a key. -/
theorem contextKey_parts {host : CacheHost} {settings : QnnSettings} {key : String}
    {finalization performance : Option String}
    (hoptions : settings.options = optionMap finalization performance)
    (h : contextKey host settings = some key) :
    ∃ names lines, externalDataFiles host.model.content = some names ∧
      dataLines host.siblings names = some lines ∧
      key.toList = "onnxruntime=".toList ++ (host.version.toList ++
        ('\n' :: levelLine settings.level ++ '\n' :: (host.identity.toList ++
          (modelMark host.model.content ++
            (modeLines finalization performance ++ lines.toList))))) := by
  unfold contextKey at h
  split at h
  · exact nomatch h
  split at h
  · exact nomatch h
  rename_i names hnames
  obtain ⟨lines, hlines, rfl⟩ := Option.map_eq_some_iff.mp h
  refine ⟨names, lines, hnames, hlines, ?_⟩
  have hmark : "\nbackend_path=libQnnHtp.so\n".toList =
      '\n' :: "backend_path=libQnnHtp.so\n".toList := by
    decide
  unfold modelMark levelLine
  rw [hmark]
  simp only [String.toList_append, break_toList, hoptions, optionLines_optionMap, List.append_assoc,
    List.cons_append, List.nil_append]

/-- Two calls whose texts do not read as lines of the key and that hash no two texts to one
digest have the same key only for the same inputs. -/
theorem equal_keys_same_inputs {host host' : CacheHost} {settings settings' : QnnSettings}
    {options options' : List (String × String)}
    {performanceMode finalizationMode performanceMode' finalizationMode' key : String}
    (haccepted : qnnSettings options performanceMode finalizationMode = .ok settings)
    (haccepted' : qnnSettings options' performanceMode' finalizationMode' = .ok settings')
    (hseparable : Separable host settings) (hseparable' : Separable host' settings')
    (hdigests : NoCollision host host') (hkey : contextKey host settings = some key)
    (hkey' : contextKey host' settings' = some key) :
    host.version = host'.version ∧ settings.level = settings'.level ∧
    host.identity = host'.identity ∧ host.model.content = host'.model.content ∧
    settings.options = settings'.options ∧
    ∀ names, externalDataFiles host.model.content = some names → ∀ name ∈ names,
      (host.siblings name).content = (host'.siblings name).content := by
  obtain ⟨finalization, performance, hoptions⟩ := hasModes_of_accepted haccepted
  obtain ⟨finalization', performance', hoptions'⟩ := hasModes_of_accepted haccepted'
  obtain ⟨names, lines, hnames, hlines, htext⟩ := contextKey_parts hoptions hkey
  obtain ⟨names', lines', hnames', hlines', htext'⟩ := contextKey_parts hoptions' hkey'
  -- the version and the level
  obtain ⟨hversion, hlevel, hrest⟩ := MarkedTexts.append_line_inj
    (break_notMem_levelLine settings.level) (break_notMem_levelLine settings'.level)
    (hseparable.version _) (hseparable'.version _)
    (List.append_cancel_left (htext.symm.trans htext'))
  -- the identity and the model
  obtain ⟨hidentity, hmark, hrest⟩ := markers_model.append_inj ⟨_, rfl⟩ ⟨_, rfl⟩
    (hseparable.identity _) (hseparable'.identity _) hrest
  have hmodel : host.model.content = host'.model.content :=
    hdigests _ (List.mem_append_left _ List.mem_cons_self) _
      (List.mem_append_right _ List.mem_cons_self) (modelMark_digest hmark)
  -- the model determines the names, and these the length of the last lines
  have hsame : names' = names := by
    rw [← hmodel, hnames] at hnames'
    exact (Option.some.inj hnames').symm
  subst hsame
  obtain ⟨hmodes, hdata⟩ := List.append_inj' hrest (dataLines_length hlines hlines')
  have hfree : ∀ value ∈ finalization, ¬ performanceMark <:+: value.toList := by
    rintro value rfl
    exact hseparable.finalization value (hoptions ▸ List.mem_cons_of_mem _ List.mem_cons_self)
  have hfree' : ∀ value ∈ finalization', ¬ performanceMark <:+: value.toList := by
    rintro value rfl
    exact hseparable'.finalization value (hoptions' ▸ List.mem_cons_of_mem _ List.mem_cons_self)
  obtain ⟨hfinalization, hperformance⟩ := modeLines_inj hfree hfree' hmodes
  refine ⟨String.toList_inj.mp hversion, levelLine_inj hlevel, String.toList_inj.mp hidentity,
    hmodel, by rw [hoptions, hoptions', hfinalization, hperformance], ?_⟩
  intro others hothers name hname
  cases hnames.symm.trans hothers
  rw [← String.toList_inj.mp hdata] at hlines'
  have hhashed (side : CacheHost) (hside : externalDataFiles side.model.content = some names') :
      (side.siblings name).content ∈ hashedBy side := by
    refine List.mem_cons_of_mem _ (List.mem_map.mpr ⟨name, ?_, rfl⟩)
    rw [hside]
    exact hname
  exact hdigests _ (List.mem_append_left _ (hhashed host hnames)) _
    (List.mem_append_right _ (hhashed host' hnames')) (dataLines_digests hlines hlines' hname)

/-- A host with an empty model. -/
def emptyModelHost : CacheHost :=
  ⟨"1.22.0", "libQnnHtp.so=1:2\n", "", true, ⟨true, [], false⟩, fun _ => ⟨false, [], false⟩⟩

theorem noCollision_emptyModelHost : NoCollision emptyModelHost emptyModelHost := by
  have hhashed : hashedBy emptyModelHost = [[]] := by decide +kernel
  intro x hx y hy _
  rw [hhashed] at hx hy
  simp only [List.mem_append, List.mem_singleton, or_self] at hx hy
  rw [hx, hy]

theorem separable_emptyModelHost (performance : Option String) :
    Separable emptyModelHost ⟨.enableAll, optionMap none performance⟩ := by
  refine ⟨fun level hinside => ?_, fun content hinside => ?_, fun value hmem => ?_⟩
  · have hlevel : 7 ≤ (levelLine level).length := by cases level <;> decide +kernel
    have hversion : (emptyModelHost.version.toList ++ ['\n']).length = 7 := by decide +kernel
    have hlength := hinside.length_le
    rw [hversion, List.length_append, List.length_cons] at hlength
    omega
  · have hlength := hinside.length_le
    rw [markers_model.length _ ⟨content, rfl⟩] at hlength
    exact absurd hlength (by decide +kernel)
  · cases performance <;> simp [optionMap] at hmem

/-- One stage asks for a mode in its descriptor and one in the environment. -/
theorem example_same_modes :
    let settings : QnnSettings := ⟨.enableAll, optionMap none (some "burst")⟩
    emptyModelHost.version = emptyModelHost.version ∧ settings.level = settings.level ∧
    emptyModelHost.identity = emptyModelHost.identity ∧
    emptyModelHost.model.content = emptyModelHost.model.content ∧
    settings.options = settings.options ∧
    ∀ names, externalDataFiles emptyModelHost.model.content = some names → ∀ name ∈ names,
      (emptyModelHost.siblings name).content = (emptyModelHost.siblings name).content := by
  intro settings
  have hdescriptor : qnnSettings [("qnn.htp_performance_mode", "burst")] "" "" = .ok settings := by
    decide +kernel
  have henvironment : qnnSettings [] "burst" "" = .ok settings := by decide +kernel
  have hsome : (contextKey emptyModelHost settings).isSome = true := by decide +kernel
  obtain ⟨key, hkey⟩ := Option.isSome_iff_exists.mp hsome
  exact equal_keys_same_inputs hdescriptor henvironment (separable_emptyModelHost _)
    (separable_emptyModelHost _) noCollision_emptyModelHost hkey hkey

/-- A line break in the first mode makes it read as both modes. -/
theorem broken_mode_same_key :
    ∃ settings settings', qnnSettings [] "" "3\nhtp_performance_mode=burst" = .ok settings ∧
      qnnSettings [] "burst" "3" = .ok settings' ∧ NoCollision emptyModelHost emptyModelHost ∧
      (contextKey emptyModelHost settings).isSome = true ∧
      contextKey emptyModelHost settings = contextKey emptyModelHost settings' ∧
      settings.options ≠ settings'.options :=
  ⟨⟨.enableAll, optionMap (some "3\nhtp_performance_mode=burst") none⟩,
    ⟨.enableAll, optionMap (some "3") (some "burst")⟩, by decide +kernel, by decide +kernel,
    noCollision_emptyModelHost, by decide +kernel, by decide +kernel, by decide +kernel⟩

end Separation

section Collisions

def levelName : GraphOptimizationLevel → String
  | .disableAll => "disable"
  | .enableBasic => "basic"
  | .enableExtended => "extended"
  | .enableAll => "all"

/-- The options of a descriptor that ask for a level and the modes. -/
def requested (level : GraphOptimizationLevel) (finalization performance : Option String) :
    List (String × String) :=
  ("qnn.graph_optimization", levelName level) ::
    (finalization.toList.map fun value =>
      ("qnn.htp_graph_finalization_optimization_mode", value)) ++
    performance.toList.map fun value => ("qnn.htp_performance_mode", value)

theorem qnnOption_level (settings : QnnSettings) (level : GraphOptimizationLevel) :
    qnnOption settings ("qnn.graph_optimization", levelName level) =
      .ok { settings with level := level } := by
  have hstarts : "qnn.".toList <+: "qnn.graph_optimization".toList := by decide
  have hname : String.ofList ("qnn.graph_optimization".toList.drop 4) = "graph_optimization" := by
    decide
  have hlevel : optimizationLevel (levelName level) = some level := by
    cases level <;> decide
  unfold qnnOption
  simp only [hstarts, hname, hlevel, not_true_eq_false, if_false, if_true]

theorem qnnOption_mode {name : String}
    (hname : name = "htp_performance_mode" ∨ name = "htp_graph_finalization_optimization_mode")
    (settings : QnnSettings) (value : String) :
    qnnOption settings ("qnn." ++ name, value) =
      .ok { settings with options := setOption name value settings.options } := by
  have hkey : ("qnn." ++ name).toList = "qnn.".toList ++ name.toList := String.toList_append
  have hlength : "qnn.".toList.length = 4 := by decide
  have hdrop : String.ofList (("qnn." ++ name).toList.drop 4) = name := by
    rw [hkey, List.drop_left' hlength, String.ofList_toList]
  have hstarts : "qnn.".toList <+: ("qnn." ++ name).toList := hkey ▸ List.prefix_append _ _
  have hlevel : name ≠ "graph_optimization" := by
    rcases hname with rfl | rfl <;> decide
  unfold qnnOption
  simp only [hstarts, not_true_eq_false, if_false, hdrop, hlevel]
  rw [if_pos hname]

theorem foldlM_option {settings next : QnnSettings} {option : String × String}
    (h : qnnOption settings option = .ok next) (options : List (String × String)) :
    (option :: options).foldlM qnnOption settings = options.foldlM qnnOption next := by
  rw [List.foldlM_cons, h]
  rfl

/-- Every level and every choice of modes is accepted. -/
theorem qnnSettings_requested (level : GraphOptimizationLevel)
    (finalization performance : Option String) :
    qnnSettings (requested level finalization performance) "" "" =
      .ok ⟨level, optionMap finalization performance⟩ := by
  have hfinalization : "qnn.htp_graph_finalization_optimization_mode" =
      "qnn." ++ "htp_graph_finalization_optimization_mode" := by
    decide
  have hperformance : "qnn.htp_performance_mode" = "qnn." ++ "htp_performance_mode" := by
    decide
  have hperformances (settings : QnnSettings) (hmodes : settings.options = optionMap finalization none) :
      (performance.toList.map fun value => ("qnn.htp_performance_mode", value)).foldlM qnnOption
        settings = .ok { settings with options := optionMap finalization performance } := by
    cases performance with
    | none =>
        rw [← hmodes]
        rfl
    | some other =>
        rw [Option.toList_some, List.map_cons, hperformance,
          foldlM_option (qnnOption_mode (.inl rfl) settings other), hmodes, setOption_performance]
        rfl
  have hloop : (requested level finalization performance).foldlM qnnOption {} =
      .ok ⟨level, optionMap finalization performance⟩ := by
    unfold requested
    rw [List.cons_append, foldlM_option (qnnOption_level _ level)]
    cases finalization with
    | none => exact hperformances _ rfl
    | some value =>
        rw [Option.toList_some, List.map_cons, List.map_nil, hfinalization, List.singleton_append,
          foldlM_option (qnnOption_mode (.inr rfl) _ value)]
        exact hperformances _ (setOption_finalization value none none)
  unfold qnnSettings
  rw [hloop]
  rfl

/-- The text of a key, if there is one. -/
theorem contextKey_eq {host host' : CacheHost} {settings settings' : QnnSettings} {key : String}
    {finalization performance finalization' performance' : Option String}
    (hkey : contextKey host settings = some key)
    (hoptions : settings.options = optionMap finalization performance)
    (hoptions' : settings'.options = optionMap finalization' performance')
    (hconfigured : host'.configured = host.configured) (hready : host'.ready = host.ready)
    (hmodel : host'.model = host.model) (hsiblings : host'.siblings = host.siblings)
    (hidentity : host'.identity ≠ "")
    (htext : host'.version.toList ++ ('\n' :: levelLine settings'.level ++ '\n' ::
        (host'.identity.toList ++ (modelMark host'.model.content ++
          modeLines finalization' performance'))) =
      host.version.toList ++ ('\n' :: levelLine settings.level ++ '\n' ::
        (host.identity.toList ++ (modelMark host.model.content ++
          modeLines finalization performance)))) :
    contextKey host' settings' = some key := by
  obtain ⟨names, lines, hnames, hlines, hparts⟩ := contextKey_parts hoptions hkey
  have hopen : ¬ (host'.configured = "off" ∨ host'.identity = "" ∨ ¬ host'.ready ∨
      ¬ host'.model.opens) := by
    unfold contextKey at hkey
    split at hkey
    · exact nomatch hkey
    rename_i hopen
    rw [hconfigured, hready, hmodel]
    exact fun h => h.elim (fun h => hopen (.inl h))
      fun h => h.elim hidentity fun h => hopen (.inr (.inr h))
  have hsome : (contextKey host' settings').isSome = true := by
    unfold contextKey
    rw [if_neg hopen, hmodel, hsiblings, hnames]
    simp only [hlines, Option.map_some, Option.isSome_some]
  obtain ⟨key', hkey'⟩ := Option.isSome_iff_exists.mp hsome
  obtain ⟨names', lines', hnames', hlines', hparts'⟩ := contextKey_parts hoptions' hkey'
  rw [hmodel, hnames] at hnames'
  cases hnames'
  rw [hsiblings, hlines] at hlines'
  cases hlines'
  have hsame : key' = key := by
    rw [← String.toList_inj, hparts, hparts']
    refine congrArg (List.append _) ?_
    have := congrArg (· ++ lines.toList) htext
    simpa only [List.append_assoc, List.cons_append] using this
  rw [hkey', hsame]

theorem identity_ne_empty {host : CacheHost} {settings : QnnSettings} {key : String}
    (hkey : contextKey host settings = some key) : host.identity ≠ "" := by
  unfold contextKey at hkey
  split at hkey
  · exact nomatch hkey
  · rename_i hopen
    exact fun h => hopen (.inr (.inl h))

/-- The lines of a first mode with the mark of the second are those of its two parts. -/
theorem split_mode {value first second : String} {v : List Char} {performance : Option String}
    (hvalue : first.toList ++ performanceMark ++ v = value.toList)
    (hsecond : second.toList =
      v ++ performance.elim [] fun other => performanceMark ++ other.toList) :
    modeLines (some first) (some second) = modeLines (some value) performance := by
  unfold modeLines
  rw [Option.elim_some, Option.elim_some, Option.elim_some, finalization_then_performance, hsecond]
  cases performance with
  | none =>
      rw [Option.elim_none, Option.elim_none, List.append_nil, List.append_nil]
      unfold finalizationLine
      rw [← hvalue]
      simp only [List.append_assoc]
  | some other =>
      rw [Option.elim_some, Option.elim_some, finalization_then_performance, ← hvalue]
      simp only [List.append_assoc]

/-- A version or a first mode that does read as a line of the key shares its key with another
call. -/
theorem inseparable_collides {host : CacheHost} {settings : QnnSettings}
    {options : List (String × String)} {performanceMode finalizationMode key : String}
    (haccepted : qnnSettings options performanceMode finalizationMode = .ok settings)
    (hkey : contextKey host settings = some key) (hdigests : NoCollision host host)
    (h : (∃ level, ¬ MarkedTexts.LineFollows '\n' host.version.toList (levelLine level)) ∨
      ∃ value, ("htp_graph_finalization_optimization_mode", value) ∈ settings.options ∧
        performanceMark <:+: value.toList) :
    ∃ host' settings' options', qnnSettings options' "" "" = .ok settings' ∧
      NoCollision host host' ∧ contextKey host' settings' = some key ∧
      (host'.version ≠ host.version ∨ settings'.options ≠ settings.options) := by
  obtain ⟨finalization, performance, hoptions⟩ := hasModes_of_accepted haccepted
  rcases h with ⟨level, hline⟩ | ⟨value, hmem, u, v, hvalue⟩
  · -- the version ends before that line, and the identity takes what comes after it
    obtain ⟨u, v, hversion⟩ := not_not.mp hline
    let identity := v ++ (levelLine settings.level ++ '\n' :: host.identity.toList)
    refine ⟨{ host with version := String.ofList u, identity := String.ofList identity },
      ⟨level, optionMap finalization performance⟩, _,
      qnnSettings_requested level finalization performance, hdigests, ?_, .inl ?_⟩
    · refine contextKey_eq hkey hoptions rfl rfl rfl rfl rfl ?_ ?_
      · intro hempty
        have hnil : identity = [] := by
          rw [← String.toList_inj, String.toList_ofList] at hempty
          exact hempty
        exact List.cons_ne_nil _ _ (List.append_eq_nil_iff.mp (List.append_eq_nil_iff.mp hnil).2).2
      · have hstart : host.version.toList ++ ['\n'] = u ++ ('\n' :: levelLine level ++ '\n' :: v) := by
          rw [← hversion]
          simp
        simp only [String.toList_ofList, identity]
        calc u ++ ('\n' :: levelLine level ++ '\n' ::
              (v ++ (levelLine settings.level ++ '\n' :: host.identity.toList) ++
                (modelMark host.model.content ++ modeLines finalization performance)))
            = u ++ ('\n' :: levelLine level ++ '\n' :: v) ++ (levelLine settings.level ++ '\n' ::
                (host.identity.toList ++ (modelMark host.model.content ++
                  modeLines finalization performance))) := by simp
          _ = _ := by rw [← hstart]; simp
    · intro hsame
      have hlength := congrArg (fun text : String => text.toList.length) hsame
      have htotal := congrArg List.length hversion
      simp only [String.toList_ofList, List.length_append, List.length_cons, List.length_nil] at hlength htotal
      omega
  · -- the first mode ends before the mark, and the second one takes what comes after it
    have hset : finalization = some value := by
      rw [hoptions] at hmem
      cases finalization <;> cases performance <;> simp_all [optionMap]
    subst hset
    let rest := v ++ performance.elim [] fun other => performanceMark ++ other.toList
    refine ⟨host, ⟨settings.level, optionMap (some (String.ofList u)) (some (String.ofList rest))⟩, _,
      qnnSettings_requested settings.level (some (String.ofList u)) (some (String.ofList rest)),
      hdigests, ?_, .inr ?_⟩
    · refine contextKey_eq hkey hoptions rfl rfl rfl rfl rfl (identity_ne_empty hkey) ?_
      refine congrArg (fun modes => host.version.toList ++ ('\n' :: levelLine settings.level ++
        '\n' :: (host.identity.toList ++ (modelMark host.model.content ++ modes)))) ?_
      refine split_mode (v := v) ?_ String.toList_ofList
      rw [String.toList_ofList, hvalue]
    · intro hsame
      have hsecond : some ("htp_graph_finalization_optimization_mode", String.ofList u) =
          some ("htp_graph_finalization_optimization_mode", value) :=
        congrArg (·[1]?) (hsame.trans hoptions)
      have hfirst : String.ofList u = value := (Prod.mk.inj (Option.some.inj hsecond)).2
      have hlength := congrArg List.length hvalue
      rw [← hfirst, String.toList_ofList, List.length_append, List.length_append,
        markers_performance.length _ rfl] at hlength
      omega

end Collisions

end Nvcr.Provider
