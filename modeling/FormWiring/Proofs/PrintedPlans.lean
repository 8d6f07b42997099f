import FormWiring.Proofs.AllOrNothing
import FormWiring.Proofs.JsonText
import FormWiring.Proofs.Meaning
import FormWiring.Proofs.ModelRoundTrip

/-!
# Printed plans

The plan command prints the plan of the form it reads under the settings it finds, and does nothing else. As JSON the
plan loses nothing: a descriptor reads back from its data, the text reads back as the data of the plan, and so a form
can be run from the printed descriptors as from its model.

Main statement: `Plan.printed_losesNothing`.
-/

set_option autoImplicit false

namespace FormWiring

/-! ## Descriptors -/

theorem MessageSource.ofDatum?_toDatum (source : MessageSource) : ofDatum? source.toDatum = some source := by
  cases source <;> simp [toDatum, ofDatum?, Datum.get?, Datum.entry?_cons, Datum.toText?, Datum.toInt32?_toInt]

theorem Arg.ofDatum?_toDatum (arg : Arg) : ofDatum? arg.toDatum = some arg := by
  cases arg <;>
    simp [toDatum, ofDatum?, Datum.get?, Datum.entry?_cons, Datum.toText?, Datum.toBool?, Datum.toInt64?_toInt,
      MessageSource.ofDatum?_toDatum]

/-- A descriptor reads back from its data. -/
theorem Descriptor.ofDatum?_toDatum (d : Descriptor) : ofDatum? d.toDatum = some d := by
  have hkind : ValidatorKind.ofName? d.kind.name = some d.kind := ValidatorKind.ofName?_eq_some_iff.2 rfl
  have htext (s : String) : (Datum.text s).toText? = some s := rfl
  have htargets := mapM_map_of_inverse htext d.targets
  have hargs := mapM_map_of_inverse Arg.ofDatum?_toDatum d.args
  simp [toDatum, ofDatum?, Datum.get?, Datum.entry?_cons, Datum.toText?, Datum.toItems?, hkind, htargets, hargs,
    MessageSource.ofDatum?_toDatum]

theorem MessageSource.isSayable_toDatum (source : MessageSource) : source.toDatum.IsSayable := by
  cases source with
  | resource id =>
    have hlow := id.le_toInt
    have hhigh := id.toInt_lt
    have hid : (Datum.int id.toInt).IsSayable := .int (by simp; omega) (by simp [UInt64.size]; omega)
    exact .record (by simp) (by simp [Datum.IsSayable.text, hid])
  | literal text => exact .record (by simp) (by simp [Datum.IsSayable.text])

theorem Arg.isSayable_toDatum (arg : Arg) : arg.toDatum.IsSayable := by
  have hvalue {tag : String} {d : Datum} (hd : d.IsSayable) :
      (Datum.record [("type", .text tag), ("value", d)]).IsSayable :=
    .record (by simp) (by simp [Datum.IsSayable.text, hd])
  cases arg with
  | bool value => exact hvalue (.bool value)
  | int value => exact hvalue (.int value.minValue_le_toInt (by have := value.toInt_lt; simp [UInt64.size]; omega))
  | text value => exact hvalue (.text value)
  | message source => exact hvalue source.isSayable_toDatum

theorem Descriptor.isSayable_toDatum (d : Descriptor) : d.toDatum.IsSayable := by
  have htargets : (Datum.list (d.targets.map .text)).IsSayable := .list (by simp [Datum.IsSayable.text])
  have hargs : (Datum.list (d.args.map Arg.toDatum)).IsSayable := .list (by simp [Arg.isSayable_toDatum])
  exact .record (by simp) (by simp [Datum.IsSayable.text, htargets, hargs, MessageSource.isSayable_toDatum])

/-! ## Plans read back -/

/-- **Descriptors from data**: a list of them. -/
def Datum.toDescriptors? (d : Datum) : Option (List Descriptor) :=
  d.toItems?.bind fun items => items.mapM Descriptor.ofDatum?

theorem Datum.toDescriptors?_list (ds : List Descriptor) :
    (Datum.list (ds.map Descriptor.toDatum)).toDescriptors? = some ds :=
  mapM_map_of_inverse Descriptor.ofDatum?_toDatum ds

theorem isSayable_descriptors (ds : List Descriptor) : (Datum.list (ds.map Descriptor.toDatum)).IsSayable :=
  .list (by simp [Descriptor.isSayable_toDatum])

theorem Plan.isSayable_toDatum (plan : Plan) : plan.toDatum.IsSayable :=
  .record (by simp) (by simp [Datum.IsSayable.text, isSayable_descriptors])

/-- **A printed plan** reads back as its data. -/
theorem Plan.parse?_planText (plan : Plan) : Json.parse? (Command.planText plan true) = some plan.toDatum :=
  Json.parse?_pretty plan.isSayable_toDatum

theorem Form.plan_eq_ok {form : Form} {options : Options} {plan : Plan} (h : form.plan options = .ok plan) :
    form.check = .ok () ∧ plan = ⟨form.unitName options, form.variant options, form.descriptors⟩ := by
  unfold Form.plan at h
  cases hcheck : form.check with
  | error e => rw [hcheck] at h; cases h
  | ok _ => rw [hcheck] at h; exact ⟨rfl, (Except.ok.inj h).symm⟩

/-! ## The command -/

/-- **Plan of a command**: that of its form under its settings. -/
def Machine.Plans (m : Machine) (config : Option String) (form : String) (plan : Plan) : Prop :=
  ∃ settings model, m.Configures config settings ∧ Form.ofFile m.files form = .ok model ∧
    model.plan settings.codegen = .ok plan

open Run

variable {m : Machine} {config : Option String} {form : String} {asJson : Bool} {plan : Plan}

/-- **The plan of a command** is found without touching anything. -/
theorem gives_plan (config : Option String) (form : String) :
    Gives (do
      let settings ← Settings.forCommand config
      let model ← Form.load form
      orFail (model.plan settings.codegen) (.plan model.host)) m (m.Plans config form) := by
  refine ((gives_forCommand config).bind fun settings m' h =>
    (h.files ▸ gives_loadForm form).bind fun model _ _ => gives_orFail _ _).congr fun plan => ?_
  constructor
  · rintro ⟨settings, hsettings, model, hmodel, hplan⟩
    exact ⟨settings, model, hsettings, hmodel, hplan⟩
  · rintro ⟨settings, model, hsettings, hmodel, hplan⟩
    exact ⟨settings, hsettings, model, hmodel, hplan⟩

theorem Command.execute_plan_eq (config : Option String) (form : String) (asJson : Bool) (m : Machine) :
    Command.execute config (.plan form asJson) m =
      ((do
        let settings ← Settings.forCommand config
        let model ← Form.load form
        orFail (model.plan settings.codegen) (.plan model.host)) >>= fun plan =>
          (Run.print (Command.planText plan asJson) : Run Unit)).run m := by
  rw [bind_assoc]
  refine congrArg (fun f => (Settings.forCommand config >>= f).run m) (funext fun settings => ?_)
  rw [bind_assoc]
  rfl

/-- **How the command ends**: with the plan printed, or with nothing printed where there is none. -/
theorem Command.execute_plan_cases {result : Except Failure Unit} {m' : Machine}
    (h : Command.execute config (.plan form asJson) m = (result, m')) :
    m'.files = m.files ∧
      ((∃ plan, m.Plans config form plan ∧ result = .ok () ∧
          m'.output = m.output ++ Command.planText plan asJson) ∨
        (¬∃ plan, m.Plans config form plan) ∧ result ≠ .ok () ∧ m'.output = m.output) := by
  obtain ⟨huntouched, hplan⟩ := gives_plan (m := m) config form
  rw [Command.execute_plan_eq, run_bind] at h
  rcases hrun : (do
    let settings ← Settings.forCommand config
    let model ← Form.load form
    orFail (model.plan settings.codegen) (.plan model.host) : Run Plan).run m with ⟨e | found, m₁⟩
  · rw [hrun] at h huntouched hplan
    cases h
    refine ⟨huntouched.files, .inr ⟨fun ⟨_, hplans⟩ => ?_, nofun, huntouched.output⟩⟩
    cases (hplan _).2 hplans
  · rw [hrun] at h huntouched hplan
    cases h
    exact ⟨huntouched.files, .inl ⟨found, (hplan found).1 rfl, rfl, huntouched.output ▸ rfl⟩⟩

/-- There is one plan at most. -/
theorem Machine.Plans.unique {plan plan' : Plan} (h : m.Plans config form plan) (h' : m.Plans config form plan') :
    plan = plan' := by
  have hplan := (gives_plan (m := m) config form).ok_iff
  exact Except.ok.inj (((hplan plan).2 h).symm.trans ((hplan plan').2 h'))

/-- **The printed plan** of a command, where there is one, and nothing else. -/
theorem Command.execute_plan (h : m.Plans config form plan) :
    ∃ m', Command.execute config (.plan form asJson) m = (.ok (), m') ∧ m'.files = m.files ∧
      m'.output = m.output ++ Command.planText plan asJson := by
  rcases hrun : Command.execute config (.plan form asJson) m with ⟨result, m'⟩
  obtain ⟨hfiles, ⟨plan', hplan', rfl, houtput⟩ | ⟨hnone, -, -⟩⟩ := Command.execute_plan_cases hrun
  · exact ⟨m', rfl, hfiles, h.unique hplan' ▸ houtput⟩
  · exact absurd ⟨plan, h⟩ hnone

/-! ## Forms run from descriptors -/

/-- **Answers** to steps, in order. -/
def Session.answers (session : Session) : List Step → List StepAnswer
  | [] => []
  | step :: rest => (session.step step).2 :: (session.step step).1.answers rest

/-- **Course of descriptors**: what a session of their validators answers to steps, on a screen with texts, and where
it ends. -/
def Session.course? (lookup : Int32 → String) (texts : List (String × String)) (steps : List Step)
    (ds : List Descriptor) : Option (List StepAnswer × Session) :=
  (ds.mapM (Validator.ofDescriptor? lookup)).map fun vs =>
    let session := Session.start (Screen.ofTexts texts) vs
    (session.answers steps, session.run steps)

theorem Session.exists_course (lookup : Int32 → String) (texts : List (String × String)) (steps : List Step)
    (form : Form) : ∃ course, Session.course? lookup texts steps form.descriptors = some course :=
  ⟨_, congrArg (Option.map _) (mapM_ofDescriptor?_resolve lookup form.fields)⟩

/-- **A printed plan loses nothing.** Descriptors read back from their data, and from their JSON text. The JSON text of
the plan of a form is a record of its unit name, its variant and its descriptors; and whatever the resources, the texts
and the steps, the descriptors that are read from it take the same course as those of the form, which take one. The
command prints this text wherever the form has a plan. -/
theorem Plan.printed_losesNothing :
    (∀ ds : List Descriptor,
      (Datum.list (ds.map Descriptor.toDatum)).toDescriptors? = some ds ∧
        (Json.parse? (Json.pretty (.list (ds.map Descriptor.toDatum)) ++ "\n")).bind Datum.toDescriptors? = some ds) ∧
    (∀ (form : Form) (options : Options) (plan : Plan), form.plan options = .ok plan →
      ∃ d, Json.parse? (Command.planText plan true) = some d ∧
        d.get? "unit" = some (.text plan.unit) ∧ d.get? "variant" = some (.text plan.variant.name) ∧
        (d.get? "descriptors").bind Datum.toDescriptors? = some plan.descriptors ∧
        ∀ lookup texts steps, ∃ course,
          Session.course? lookup texts steps form.descriptors = some course ∧
            ((d.get? "descriptors").bind Datum.toDescriptors?).bind (Session.course? lookup texts steps) =
              some course) ∧
    ∀ (m : Machine) config path plan, m.Plans config path plan →
      ∃ m', Command.execute config (.plan path true) m = (.ok (), m') ∧
        m'.output = m.output ++ Command.planText plan true := by
  refine ⟨fun ds => ⟨Datum.toDescriptors?_list ds, ?_⟩, fun form options plan hplan => ?_,
    fun m config path plan hplan => ?_⟩
  · rw [Json.parse?_pretty (isSayable_descriptors ds)]
    exact Datum.toDescriptors?_list ds
  · have hdescriptors : (plan.toDatum.get? "descriptors").bind Datum.toDescriptors? = some plan.descriptors :=
      Datum.toDescriptors?_list plan.descriptors
    obtain ⟨-, rfl⟩ := Form.plan_eq_ok hplan
    refine ⟨_, Plan.parse?_planText _, rfl, rfl, hdescriptors, fun lookup texts steps => ?_⟩
    obtain ⟨course, hcourse⟩ := Session.exists_course lookup texts steps form
    exact ⟨course, hcourse, by rw [hdescriptors]; exact hcourse⟩
  · obtain ⟨m', hrun, -, houtput⟩ := Command.execute_plan hplan
    exact ⟨m', hrun, houtput⟩

/-- A machine with one file, the model of a form. -/
def machineWithForm (text : String) : Machine :=
  { files := { nodes := [(["model.toml"], .file (FileSystem.bytesOfText text))] } }

theorem plans_machineWithForm {text : String} {model : Form} {plan : Plan}
    (hmodel : (Toml.parse? text).bind (Form.ofDatum? .toml) = some model) (hplan : model.plan {} = .ok plan) :
    (machineWithForm text).Plans none "model.toml" plan := by
  have hread : (machineWithForm text).files.read "model.toml" = .ok text :=
    FileSystem.read_only (by decide) (by decide) (by decide) text
  have hmissing : (machineWithForm text).files.exists? Settings.defaultPath = false :=
    FileSystem.exists?_other (by decide) (by decide) (by decide) _
  refine ⟨{}, model, ⟨{}, by rw [hmissing]; rfl, rfl, by decide +kernel⟩, ?_, hplan⟩
  simp only [Form.ofFile, hread, Except.mapError, bind, Except.bind, hmodel]
  rfl

/-- A model whose message holds quotes. -/
def quotingModel : String :=
  "name = 'Login'\non_success = 'ok'\nfields = [\x7b name = 'mail', rule = 'email', error_message = '\"who\"' \x7d]\n"

/-- The form of that model. -/
def quotingForm : Form :=
  { host := "Login", onSuccess := "ok",
    fields := [{ name := "mail", rule := .email true, messageText := "\"who\"" }] }

/-- The plan of that form. -/
def quotingPlan : Plan :=
  ⟨"LoginValidation", .direct, [⟨.email, ["mail"], .literal "\"who\"", [.bool true, .bool true]⟩]⟩

/-- The plan of the model is printed, and its descriptor is read back with its message. -/
theorem Plan.printed_losesNothing_quoting :
    ∃ m' d, Command.execute none (.plan "model.toml" true) (machineWithForm quotingModel) = (.ok (), m') ∧
      Json.parse? m'.output = some d ∧ d.get? "unit" = some (.text "LoginValidation") ∧
      (d.get? "descriptors").bind Datum.toDescriptors? =
        some [⟨.email, ["mail"], .literal "\"who\"", [.bool true, .bool true]⟩] := by
  have hmodel : (Toml.parse? quotingModel).bind (Form.ofDatum? .toml) = some quotingForm := by decide +kernel
  have hplan : quotingForm.plan {} = .ok quotingPlan := by decide
  obtain ⟨-, hplans, hprints⟩ := Plan.printed_losesNothing
  obtain ⟨m', hrun, houtput⟩ := hprints _ _ _ _ (plans_machineWithForm hmodel hplan)
  obtain ⟨d, hparse, hunit, -, hdescriptors, -⟩ := hplans quotingForm {} quotingPlan hplan
  have hprinted : m'.output = Command.planText quotingPlan true := by
    rw [houtput, machineWithForm, String.empty_append]
  exact ⟨m', d, hrun, hprinted ▸ hparse, hunit, hdescriptors⟩

end FormWiring
