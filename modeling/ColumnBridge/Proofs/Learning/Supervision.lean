import ColumnBridge.Proofs.Learning.Dialogue
import ColumnBridge.Proofs.Matrix.Acceptance

/-!
# Features and targets before the library

Fitting and scoring hand the library the same two arrays, and differ in what
they then ask it about them.  Both are therefore one dialogue with a different
last request.  `SupervisionCourse` lists the five courses it can take.
Conversions and exports alternate in it: the target is converted only after the
features have been exported, so a target that cannot be converted leaves an
exported array behind.
-/

namespace ColumnBridge.Learning

open Backend

variable {σ Model ForeignArray α : Type}

/-! ## The dialogue about features and a target -/

/-- Exports features and a target with one row per slot, and ends with a request
about the two arrays. -/
def supervision (xs : Table) (y : Column)
    (last : ForeignArray → ForeignArray → Dialogue Model ForeignArray α) :
    Dialogue Model ForeignArray α :=
  if xs.height ≠ y.length then
    .done (.error (.targetHeight xs.height y.name y.length))
  else
    .convert (DenseMatrix.ofTable xs) fun matrix =>
      .ask (.exportMatrix matrix) fun features =>
        .convert (DenseMatrix.ofColumn y) fun values =>
          .ask (.exportVector values) fun target => last features target

/-- The dialogue of `fit`. -/
def fitting (model : Model) (xs : Table) (y : Column) :
    Dialogue Model ForeignArray Unit :=
  supervision xs y fun features target => .single (.fit model features target)

/-- The dialogue of `score`. -/
def scoring (model : Model) (xs : Table) (y : Column) :
    Dialogue Model ForeignArray Binary64 :=
  supervision xs y fun features target => .single (.score model features target)

/-- The common body of `fit` and `score` performs the dialogue. -/
theorem supervised_eq_perform (backend : Backend σ Model ForeignArray)
    (xs : Table) (y : Column)
    {ask : ForeignArray → ForeignArray → EStateM Error σ α}
    {last : ForeignArray → ForeignArray → Dialogue Model ForeignArray α}
    (hlast : ∀ features target,
      ask features target = (last features target).perform backend) :
    (do
      if xs.height ≠ y.length then
        throw (.targetHeight xs.height y.name y.length)
      let features ← matrixOfTable backend xs
      let target ← vectorOfColumn backend y
      ask features target) = (supervision xs y last).perform backend := by
  rw [supervision]
  by_cases h : xs.height = y.length
  · rw [if_neg (not_not_intro h), if_neg (not_not_intro h),
      Dialogue.perform_convert, matrixOfTable, bind_assoc]
    apply bind_congr
    intro matrix
    rw [Dialogue.perform]
    apply bind_congr
    intro features
    rw [Dialogue.perform_convert, vectorOfColumn, bind_assoc]
    apply bind_congr
    intro values
    apply bind_congr
    intro target
    exact hlast features target
  · rw [if_pos h, if_pos h]
    rfl

theorem fit_eq_perform (backend : Backend σ Model ForeignArray) (model : Model)
    (xs : Table) (y : Column) :
    fit backend model xs y = (fitting model xs y).perform backend :=
  supervised_eq_perform backend xs y fun features target =>
    (Dialogue.perform_single backend (.fit model features target)).symm

theorem score_eq_perform (backend : Backend σ Model ForeignArray)
    (model : Model) (xs : Table) (y : Column) :
    score backend model xs y = (scoring model xs y).perform backend :=
  supervised_eq_perform backend xs y fun features target =>
    (Dialogue.perform_single backend (.score model features target)).symm

/-! ## The courses it takes -/

/-- The exchanges about features and a target of equal heights, and the outcome
they lead to.  The last exchange is about the very arrays that the two exports
returned, and its answer is the outcome. -/
inductive SupervisionCourse (xs : Table) (y : Column)
    (last : ForeignArray → ForeignArray → Except Error α →
      Exchange Model ForeignArray) :
    List (Exchange Model ForeignArray) → Except Error α → Prop
  | noMatrix {error : Error} (hxs : DenseMatrix.ofTable xs = .error error) :
      SupervisionCourse xs y last [] (.error error)
  | noFeatures {matrix : DenseMatrix}
      (hxs : DenseMatrix.ofTable xs = .ok matrix) (error : Error) :
      SupervisionCourse xs y last [⟨.exportMatrix matrix, .error error⟩]
        (.error error)
  | noValues {matrix : DenseMatrix} (hxs : DenseMatrix.ofTable xs = .ok matrix)
      (features : ForeignArray) {error : Error}
      (hy : DenseMatrix.ofColumn y = .error error) :
      SupervisionCourse xs y last [⟨.exportMatrix matrix, .ok features⟩]
        (.error error)
  | noTarget {matrix values : DenseMatrix}
      (hxs : DenseMatrix.ofTable xs = .ok matrix)
      (features : ForeignArray) (hy : DenseMatrix.ofColumn y = .ok values)
      (error : Error) :
      SupervisionCourse xs y last
        [⟨.exportMatrix matrix, .ok features⟩,
          ⟨.exportVector values, .error error⟩] (.error error)
  | asked {matrix values : DenseMatrix}
      (hxs : DenseMatrix.ofTable xs = .ok matrix)
      (features : ForeignArray) (hy : DenseMatrix.ofColumn y = .ok values)
      (target : ForeignArray)
      (outcome : Except Error α) :
      SupervisionCourse xs y last
        [⟨.exportMatrix matrix, .ok features⟩, ⟨.exportVector values,
          .ok target⟩, last features target outcome] outcome

variable {xs : Table} {y : Column} {log : List (Exchange Model ForeignArray)}
  {last : ForeignArray → ForeignArray → Except Error α →
    Exchange Model ForeignArray}
  {outcome : Except Error α}

/-- A dialogue about features and a target of equal heights takes one of the
five courses: at each conversion and at each request it goes on or ends. -/
theorem supervisionCourse_of_course
    {next : ForeignArray → ForeignArray → Dialogue Model ForeignArray α}
    (hnext : ∀ features target log outcome,
      (next features target).Course log outcome →
    log = [last features target outcome]) (hheight :
    xs.height = y.length) (h : (supervision xs y next).Course log outcome) :
    SupervisionCourse xs y last log outcome := by
  rw [supervision, if_neg (not_not_intro hheight)] at h
  cases hxs : DenseMatrix.ofTable xs with
  | error error =>
      rw [hxs] at h
      cases h
      exact .noMatrix hxs
  | ok matrix =>
      rw [hxs] at h
      cases h with
      | failed error => exact .noFeatures hxs error
      | answered features h =>
          cases hy : DenseMatrix.ofColumn y with
          | error error =>
              rw [hy] at h
              cases h
              exact .noValues hxs features hy
          | ok values =>
              rw [hy] at h
              cases h with
              | failed error => exact .noTarget hxs features hy error
              | answered target h =>
                  rw [hnext features target _ _ h]
                  exact .asked hxs features hy target outcome

/-! ## What the courses have in common -/

/-- The exchanges about features and a target of equal heights: their order,
when they are complete, and what the library has been given by then. -/
structure Supervised (xs : Table) (y : Column)
    (last : ForeignArray → ForeignArray → Except Error α →
      Exchange Model ForeignArray)
    (log : List (Exchange Model ForeignArray)) (outcome : Except Error α) :
    Prop where
  course : SupervisionCourse xs y last log outcome
  ok_iff : (∃ value, outcome = .ok value) ↔
    log.length = 3 ∧ ∀ exchange ∈ log, exchange.Succeeded
  shapes : log.length = 3 →
    ∃ matrix features values target,
        log = [⟨.exportMatrix matrix, .ok features⟩,
        ⟨.exportVector values, .ok target⟩, last features target outcome] ∧
      matrix.rows = xs.height ∧ matrix.cols = xs.width ∧
      values.rows = y.length ∧ values.cols = 1 ∧ values.rows = matrix.rows

/-- The last request is the only one whose success is not settled by the course
itself; the shapes are those of the columns, whatever their cells. -/
theorem SupervisionCourse.supervised
    (h : SupervisionCourse xs y last log outcome)
    (hheight : xs.height = y.length)
    (hlast : ∀ features target outcome,
      (last features target outcome).Succeeded ↔ ∃ value, outcome = .ok value) :
    Supervised xs y last log outcome where
  course := h
  ok_iff := by
    cases h with
    | noMatrix | noFeatures | noValues | noTarget => simp
    | asked hxs features hy target outcome =>
        simpa [Exchange.Succeeded] using (hlast features target outcome).symm
  shapes := by
    intro hlog
    cases h with
    | noMatrix | noFeatures | noValues | noTarget => cases hlog
    | asked hxs features hy target outcome =>
        rw [DenseMatrix.ofColumn_eq_ofColumns] at hy
        obtain ⟨-, -, hmatrix⟩ := DenseMatrix.holds_of_ofColumns hxs
        obtain ⟨-, -, hvalues⟩ := DenseMatrix.holds_of_ofColumns hy
        refine ⟨_, features, _, target, rfl, hmatrix.rows_eq, hmatrix.cols_eq,
          hvalues.rows_eq, hvalues.cols_eq, ?_⟩
        rw [hvalues.rows_eq, hmatrix.rows_eq, hheight]

/-! ## Fitting and scoring -/

/-- Features and targets of different heights end an operation before its first
request. -/
theorem conducts_of_height_ne
    {operation : ∀ τ : Type, Backend τ Model ForeignArray → EStateM Error τ α}
    {next : ForeignArray → ForeignArray → Dialogue Model ForeignArray α}
    (hoperation : ∀ τ (backend : Backend τ Model ForeignArray),
      operation τ backend = (supervision xs y next).perform backend)
    (hheight : xs.height ≠ y.length) (backend : Backend σ Model ForeignArray)
    (s : σ) :
    backend.Conducts operation s []
      (.error (.targetHeight xs.height y.name y.length)) s := by
  apply Dialogue.conducts_of_done
  intro τ backend
  rw [hoperation, supervision, if_pos hheight]

theorem exists_supervised
    {operation : ∀ τ : Type, Backend τ Model ForeignArray → EStateM Error τ α}
    {next : ForeignArray → ForeignArray → Dialogue Model ForeignArray α}
    (hoperation : ∀ τ (backend : Backend τ Model ForeignArray),
      operation τ backend = (supervision xs y next).perform backend)
    (hnext : ∀ features target log outcome,
      (next features target).Course log outcome →
    log = [last features target outcome]) (hlast : ∀ features target outcome,
      (last features target outcome).Succeeded ↔ ∃ value, outcome = .ok value)
    (hheight : xs.height = y.length) (backend : Backend σ Model ForeignArray)
    (s : σ) : ∃ log outcome s', backend.Conducts operation s log outcome s' ∧
      Supervised xs y last log outcome := by
  obtain ⟨log, outcome, s', hcourse, hconducts⟩ :=
    Dialogue.exists_conducts hoperation backend s
  have hsupervision : SupervisionCourse xs y last log outcome :=
    supervisionCourse_of_course hnext hheight hcourse
  exact ⟨log, outcome, s', hconducts, hsupervision.supervised hheight hlast⟩

/-- Whatever the library answers, `fit` and `score` ask it for the array of the
features, for the array of the target and then about these two arrays.  They
stop at the first conversion or request that fails, with its error, and do not
ask at all if the heights differ. -/
theorem fit_and_score_ask_in_order (backend : Backend σ Model ForeignArray)
    (model : Model) (xs : Table) (y : Column) (s : σ) :
    (xs.height ≠ y.length → ∃ detail,
      backend.Conducts (fun _ backend => fit backend model xs y) s []
        (.error (.shapeMismatch detail)) s ∧
      backend.Conducts (fun _ backend => score backend model xs y) s []
        (.error (.shapeMismatch detail)) s) ∧
    (xs.height = y.length →
      (∃ log outcome s',
        backend.Conducts (fun _ backend => fit backend model xs y) s log
          outcome s' ∧
        Supervised xs y (fun features target answer =>
          ⟨.fit model features target, answer⟩) log outcome) ∧
      (∃ log outcome s',
        backend.Conducts (fun _ backend => score backend model xs y) s log
          outcome s' ∧
        Supervised xs y (fun features target answer =>
          ⟨.score model features target, answer⟩) log outcome)) := by
  have hfit (τ : Type) (backend : Backend τ Model ForeignArray) :
      fit backend model xs y = (fitting model xs y).perform backend :=
    fit_eq_perform backend model xs y
  have hscore (τ : Type) (backend : Backend τ Model ForeignArray) :
      score backend model xs y = (scoring model xs y).perform backend :=
    score_eq_perform backend model xs y
  constructor
  · intro hheight
    exact ⟨_, conducts_of_height_ne hfit hheight backend s,
      conducts_of_height_ne hscore hheight backend s⟩
  · intro hheight
    constructor
    · exact exists_supervised hfit (fun _ _ _ _ hcourse => hcourse.of_single)
        (fun _ _ _ => Iff.rfl) hheight backend s
    · exact exists_supervised hscore (fun _ _ _ _ hcourse => hcourse.of_single)
        (fun _ _ _ => Iff.rfl) hheight backend s

/-- A library that counts its calls, fails at one of them, and numbers the
arrays it returns. -/
def sampleBackend (failing : Nat) : Backend Nat Unit Nat :=
  let call {α : Type} (answer : Nat → α) : EStateM Error Nat α := fun calls =>
    if calls = failing then .error (.foreignRuntime "out of memory") (calls + 1)
    else .ok (answer calls) (calls + 1)
  { exportMatrix := fun _ => call id
    exportVector := fun _ => call id
    importVector := fun _ name => call fun _ => .ofSlots name .float64 []
    importMatrix := fun _ => call fun _ => ⟨#[], 0, 0, rfl, by decide⟩
    fit := fun _ _ _ => call fun _ => ()
    score := fun _ _ _ => call fun _ => .nan
    predict := fun _ _ => call id
    confusionMatrix := fun _ _ => call id }

/-- Two features of two rows. -/
def sampleFeatures : Table where
  columns :=
    [.ofSlots "width" .float64 [some ⟨0x4000000000000000⟩, none],
      .ofSlots "length" .float64 [none, some ⟨0x3ff0000000000000⟩]]
  compatible := (Table.defect?_eq_none_iff _).mp (by decide)

/-- A target with that many slots. -/
def sampleTarget (slots : Nat) : Column :=
  ⟨"label", .float64, [.repeated slots none]⟩

theorem fit_and_score_ask_sampleBackend :
    (∃ detail, (sampleBackend 3).Conducts
      (fun _ backend => fit backend () sampleFeatures (sampleTarget 3)) 0 []
      (.error (.shapeMismatch detail)) 0) ∧
    (∃ first second, (sampleBackend 1).Conducts
      (fun _ backend => fit backend () sampleFeatures (sampleTarget 2)) 0
        [first, second]
      (.error (.foreignRuntime "out of memory")) 2) ∧
    ∃ matrix features values target, (sampleBackend 3).Conducts
      (fun _ backend => score backend () sampleFeatures (sampleTarget 2)) 0
      [⟨.exportMatrix matrix, .ok features⟩, ⟨.exportVector values, .ok target⟩,
        ⟨.score () features target, .ok .nan⟩] (.ok .nan) 3 ∧
      matrix.rows = 2 ∧ matrix.cols = 2 ∧ values.rows = 2 ∧
        values.cols = 1 := by
  refine ⟨?_, ?_, ?_⟩
  · obtain ⟨hrefused, -⟩ := fit_and_score_ask_in_order (sampleBackend 3) ()
      sampleFeatures (sampleTarget 3) 0
    obtain ⟨detail, hfit, -⟩ := hrefused (by decide)
    exact ⟨detail, hfit⟩
  · obtain ⟨-, hasked⟩ := fit_and_score_ask_in_order (sampleBackend 1) ()
      sampleFeatures (sampleTarget 2) 0
    obtain ⟨⟨log, outcome, s', hfit, -⟩, -⟩ := hasked (by decide)
    obtain ⟨first, second, hrun⟩ : ∃ first second,
        (fit (sampleBackend 1).recorder () sampleFeatures (sampleTarget 2)).run
          (0, []) =
          .error (.foreignRuntime "out of memory") (2, [first, second]) :=
        ⟨_, _, rfl⟩
    have hrecorded := hfit.run_recorder_eq
    rw [hrun] at hrecorded
    cases outcome with
    | ok value => cases hrecorded
    | error error =>
        cases hrecorded
        exact ⟨first, second, hfit⟩
  · obtain ⟨-, hasked⟩ := fit_and_score_ask_in_order (sampleBackend 3) ()
      sampleFeatures (sampleTarget 2) 0
    obtain ⟨-, log, outcome, s', hscore, hsupervised⟩ := hasked (by decide)
    have hrun :
        (score (sampleBackend 3) () sampleFeatures (sampleTarget 2)).run 0 =
        .ok .nan 3 := rfl
    have houtcome := hscore.run_eq
    rw [hrun] at houtcome
    cases outcome with
    | error error => cases houtcome
    | ok value =>
        cases houtcome
        obtain ⟨hlength, -⟩ := hsupervised.ok_iff.mp ⟨_, rfl⟩
        obtain ⟨matrix, features, values, target, rfl, hrows, hcols, hrows',
          hcols', -⟩ :=
          hsupervised.shapes hlength
        exact ⟨matrix, features, values, target, hscore, hrows, hcols,
          hrows', hcols'⟩

end ColumnBridge.Learning
