import Parlance.Proofs.Congruence

/-!
The meanings of expressions and statements respect every local congruence: if two engines run the
parts of programs in related ways, then what each expression and each statement makes of its parts
is related too. The knot is tied at the end by induction on the depth.
-/

namespace Parlance

open Loop Engine Run List

/-! ### Expressions and their parts -/

namespace ExpressionCongruence

variable {related : RunRelation} {known : Expr → Prop} {first second : Settings}
  {one other : Engine}

section

variable (law : ExpressionCongruence related first second)
  (parts : Engine.ExpressionParts related known one other)

include law parts

/-! ### Parts in a row -/

omit parts in
theorem evaluateAll {expressions : List Expr} (each : ∀ expression ∈ expressions,
      related Value (one.evaluate expression) (other.evaluate expression)) :
    related _ (one.evaluateAll expressions) (other.evaluateAll expressions) := by
  induction expressions with
  | nil => exact law.pure []
  | cons expression rest ih =>
    obtain ⟨here, later⟩ := forall_mem_cons.mp each
    refine law.bind here fun value => ?_
    exact law.bind (ih later) fun values => law.pure (value :: values)

theorem arguments {expressions : List Expr} (inside : ∀ part ∈ expressions, known part) :
    related _ (one.evaluateAll expressions) (other.evaluateAll expressions) :=
  law.evaluateAll fun part member => parts.evaluate (inside part member)

variable {pairs : List (String × Expr)} {condition expression object list subject : Expr}
  {arguments : List Expr}

theorem evaluateNamed (inside : ∀ pair ∈ pairs, known pair.2) :
    related _ (one.evaluateNamed pairs) (other.evaluateNamed pairs) := by
  induction pairs with
  | nil => exact law.pure []
  | cons pair rest ih =>
    obtain ⟨here, later⟩ := forall_mem_cons.mp inside
    refine law.bind (parts.evaluate here) fun value => ?_
    exact law.bind (ih later) fun values => law.pure ((pair.1, value) :: values)

theorem holds (inside : known condition) :
    related _ (one.holds condition) (other.holds condition) :=
  law.bind (parts.evaluate inside) fun value => law.isTrue value

theorem whole (inside : known expression) :
    related _ (one.whole expression) (other.whole expression) :=
  law.bind (parts.evaluate inside) fun value => law.ofExcept (Heap.toInt value)

theorem real (inside : known expression) :
    related _ (one.real expression) (other.real expression) :=
  law.bind (parts.evaluate inside) fun value => law.ofExcept (Heap.toFloat value)

theorem listAddress (action : String) (inside : known expression) :
    related _ (one.listAddress action expression) (other.listAddress action expression) := by
  refine law.bind (parts.evaluate inside) fun value => ?_
  cases value with
  | list address => exact law.pure address
  | _ => exact law.report rfl

/-! ### Properties and indices -/

omit parts in
theorem readProperty (value : Value) (name : String) : related.Refl (readProperty value name) :=
  law.bind (law.within _) fun _ => law.lookHeap fun heap => heap.property value name

theorem property (inside : known object) (name : String) :
    related _ (one.property object name) (other.property object name) := by
  refine law.bind (parts.evaluate inside) fun value => ?_
  cases value with
  | nothing => exact law.report rfl
  | _ => exact law.readProperty _ name

theorem index {place : Expr} (inside : known object ∧ known place) :
    related _ (one.index object place) (other.index object place) := by
  refine law.bind (parts.evaluate inside.1) fun value => ?_
  refine law.bind (parts.evaluate inside.2) fun position => ?_
  refine law.bind (law.fromHeap fun heap => heap.item? value position) fun found => ?_
  cases found with
  | some item => exact law.pure item
  | none => exact law.report rfl

/-! ### Calls -/

theorem callBuiltin (builtin : Builtin) (inside : ∀ argument ∈ arguments, known argument)
    (set : ∀ values, related.Refl (callSet builtin values)) :
    related _ (one.callBuiltin builtin arguments) (other.callBuiltin builtin arguments) := by
  refine law.bind (law.arguments parts inside) fun values => ?_
  refine law.bind (set values) fun found => ?_
  have applied (drawn : Nat) := law.withHeap fun heap =>
    Builtin.grows_apply heap drawn values builtin
  cases found with
  | some value => exact law.pure value
  | none =>
    dsimp only
    split
    · exact law.bind (law.draw) applied
    · exact law.bind (law.pure 0) applied

theorem call {name : String} {arguments : List Expr}
    (inside : ∀ argument ∈ arguments, known argument)
    (reaches : Engine.Reaches related first second one other (.call name arguments)) :
    related _ (one.call name arguments) (other.call name arguments) := by
  rw [Engine.call, Engine.call]
  cases own : Builtin.ofName? name with
  | some builtin => exact law.callBuiltin parts builtin inside (reaches.2 builtin own)
  | none => exact reaches.1 own

variable (name : String)

omit parts in
theorem allowedLibrary : related.Refl (allowedLibrary name) :=
  law.tame (isPlain_allowedLibrary name) (isTame_allowedLibrary name)

theorem foreignCall (path : String) (inside : ∀ argument ∈ arguments, known argument)
    (reaches : Engine.Reaches related first second one other (.foreignCall path arguments)) :
    related _ (one.foreignCall first path arguments) (other.foreignCall second path arguments) := by
  refine law.checked .foreign fun allowed _ => ?_
  split
  · refine law.bind (law.allowedLibrary _) fun library => ?_
    refine law.bind (law.tame (isPlain_fromDescribed _) (isTame_fromDescribed _))
      fun target => ?_
    cases Foreign.callName? target with
    | none => exact law.report rfl
    | some function =>
      refine law.bind (law.arguments parts inside) fun values => ?_
      cases Inward.ofCall? function values with
      | none => exact (reaches allowed).1 function values
      | some inward => exact (reaches allowed).2 inward
  · exact law.report rfl

/-! ### Items of lists, and texts -/

omit parts in
theorem overItems (address : Nat) {keep hold : Value → Run (Option Value)}
    (same : ∀ item, related _ (keep item) (hold item)) {few many : Nat}
    (rounds : RoundsRelated related few many) (place : Nat) (kept : List Value) :
    related _ (overItems address keep few place kept) (overItems address hold many place kept) := by
  induction rounds generalizing place kept with
  | none => exact law.exhausted
  | usedUp _ usedUp => exact usedUp _
  | more _ ih =>
    refine law.bind (law.lookHeap fun heap => (heap.items address)[place]?) fun found => ?_
    cases found with
    | none => exact law.pure _
    | some item =>
      refine law.bind (same item) fun value => ?_
      cases value <;> exact ih _ _

theorem filter (inside : known list)
    (reaches : Engine.Reaches related first second one other (.filter list condition)) :
    related _ (one.filter list condition) (other.filter list condition) := by
  refine law.bind (law.listAddress parts "filter" inside) fun address => ?_
  refine law.bind ?_ fun kept => law.newList kept
  refine law.overItems address (fun item => ?_) parts.rounds 0 []
  refine law.bind (reaches item) fun verdict => ?_
  exact law.bind (law.isTrue verdict) fun _ => law.pure _

theorem map {transform : Expr} (inside : known list)
    (reaches : Engine.Reaches related first second one other (.map list transform)) :
    related _ (one.map list transform) (other.map list transform) := by
  refine law.bind (law.listAddress parts "map" inside) fun address => ?_
  refine law.bind ?_ fun kept => law.newList kept
  refine law.overItems address (fun item => ?_) parts.rounds 0 []
  exact law.bind (reaches item) fun _ => law.pure _

theorem textOf (inside : known expression) :
    related _ (one.text expression) (other.text expression) :=
  law.bind (parts.evaluate inside) fun value => law.text value

theorem split (inside : known subject) (separator : String) :
    related _ (one.split subject separator) (other.split subject separator) := by
  refine law.bind (law.textOf parts inside) fun whole => ?_
  split
  · exact law.fail rfl
  · exact law.newList _

theorem join (inside : known list) (separator : String) :
    related _ (one.join list separator) (other.join list separator) := by
  refine law.bind (law.listAddress parts "join" inside) fun address => ?_
  exact law.bind (law.fromHeap _) fun _ => law.pure _

theorem slice {start stop : Expr} (inside : known subject ∧ known start ∧ known stop) :
    related _ (one.slice subject start stop) (other.slice subject start stop) := by
  refine law.bind (law.textOf parts inside.1) fun whole => ?_
  refine law.bind (law.whole parts inside.2.1) fun lower => ?_
  exact law.bind (law.whole parts inside.2.2) fun upper => law.pure _

/-! ### Requests, files and canvases -/

theorem request (method address : String) {parameters : List (String × Expr)}
    (inside : ∀ pair ∈ parameters, known pair.2) :
    related _ (one.request first method address parameters)
      (other.request second method address parameters) := by
  refine law.checked .network fun allowed _ => law.bind (law.replies allowed) fun replies => ?_
  split
  · exact law.report rfl
  · refine law.bind (law.evaluateNamed parts inside) fun values => ?_
    refine law.bind (law.lookHeap fun heap => Datum.dictionary
      (values.map fun entry => (.string entry.1, heap.datum entry.2))) fun data => ?_
    refine law.bind (law.exchange _ allowed) fun reply => ?_
    cases reply with
    | content datum =>
      exact law.withHeap fun heap => Heap.grows_ok.mpr (heap.growsTo_load datum)
    | empty => exact law.newDictionary []
    | noAnswer reason | refused reason => exact law.failOutside fun _ => rfl

omit parts in
theorem readFile : related _ (readFile first name) (readFile second name) := by
  refine law.checked .files fun allowed _ => ?_
  refine law.bind (law.files (fun files => files.read name) (.inl allowed)) fun found => ?_
  cases found with
  | ok text => exact law.pure _
  | error cause => exact law.failOutside fun _ => rfl

theorem createCanvas {width height : Expr} (inside : known width ∧ known height) :
    related _ (one.createCanvas first width height) (other.createCanvas second width height) := by
  refine law.checked .graphics fun _ _ => law.bind (law.whole parts inside.1) fun w => ?_
  refine law.bind (law.whole parts inside.2) fun h => law.bind law.hasScreen fun shown => ?_
  split
  · exact law.fail rfl
  · exact law.newDictionary _

/-! ### Expressions -/

theorem dictionary (inside : ∀ pair ∈ pairs, known pair.2) :
    related _ (one.dictionary pairs) (other.dictionary pairs) :=
  law.bind (law.evaluateNamed parts inside) fun _ => law.newDictionary _

omit parts in
theorem binary {left right : Expr} {operator : BinaryOperator}
    (bears : Bears related (Expr.binary left operator right).misfits) (value operand : Value) :
    related.Refl (operator.apply value operand) := by
  cases operator with
  | unknown name => exact bears _ mem_cons_self
  | _ =>
    exact law.tame (isPlain_binary (fun _ => by simp) value operand)
      (isTame_binary _ value operand)

theorem valueOf {expression : Expr} (inside : expression.Each known)
    (bears : Bears related expression.misfits)
    (reaches : Engine.Reaches related first second one other expression) :
    related _ (one.valueOf first expression) (other.valueOf second expression) := by
  cases expression with
  | number | undefined | string | boolean | nothing | pi => exact law.pure _
  | identifier name => exact law.tame (isPlain_variableValue name) (isTame_variableValue name)
  | binary left operator right =>
    refine law.bind (parts.evaluate inside.1) fun value => ?_
    exact law.bind (parts.evaluate inside.2) fun operand => law.binary bears value operand
  | unary operator operand =>
    refine law.bind (parts.evaluate inside) fun value => ?_
    cases operator with
    | not => exact law.tame (isPlain_not value) fun _ => ⟨rfl, .refl _⟩
    | unknown name => exact bears _ mem_cons_self
  | property object name => exact law.property parts inside name
  | index object place => exact law.index parts inside
  | list elements =>
    exact law.bind (law.arguments parts inside) fun values =>
      law.newList values
  | dictionary pairs | object pairs => exact law.dictionary parts inside
  | call name arguments => exact law.call parts inside reaches
  | find value container =>
    refine law.bind (parts.evaluate inside.1) fun sought => ?_
    refine law.bind (parts.evaluate inside.2) fun place => ?_
    exact law.bind (law.fromHeap _) fun _ => law.pure _
  | filter list condition => exact law.filter parts inside.1 reaches
  | map list transform => exact law.map parts inside.1 reaches
  | split subject separator => exact law.split parts inside separator
  | join list separator => exact law.join parts inside separator
  | replace subject old new | contains subject pattern =>
    exact law.bind (law.textOf parts inside) fun _ => law.pure _
  | slice subject start stop => exact law.slice parts inside
  | get address parameters => exact law.request parts "get" address inside
  | post address parameters => exact law.request parts "post" address inside
  | fileText name => exact law.readFile name
  | createCanvas width height => exact law.createCanvas parts inside
  | foreignCall path arguments => exact law.foreignCall parts path inside reaches
  | misplaced | absent => exact bears _ mem_cons_self

end

end ExpressionCongruence

/-! ### Statements and their parts -/

namespace LocalCongruence

variable {related : RunRelation} {known : Expr → Prop} {first second : Settings}
  {one other : Engine}

section

variable (law : LocalCongruence related first second)
  (parts : Engine.Parts related first known one other)

include law parts

/-! ### Blocks -/

omit parts in
theorem executeAll {body : List Stmt}
    (each : ∀ statement ∈ body, related Unit (one.execute statement) (other.execute statement)) :
    related _ (one.executeAll body) (other.executeAll body) := by
  induction body with
  | nil => exact law.pure ()
  | cons statement rest ih =>
    obtain ⟨here, later⟩ := forall_mem_cons.mp each
    exact law.bind here fun _ => ih later

omit parts in
/-- A program is its statements, each with a number and in an edition of its own. -/
theorem runProgram_of_blocks {program : List Stmt} (numbered : related Nat newEdition newEdition)
    (blocks : ∀ statement ∈ program, ∀ number,
      related Unit (one.runBlock ⟨[number], Stmt.program [statement]⟩)
        (other.runBlock ⟨[number], Stmt.program [statement]⟩)) :
    related _ (one.runProgram program) (other.runProgram program) := by
  induction program with
  | nil => exact law.pure ()
  | cons statement rest ih =>
    obtain ⟨here, later⟩ := forall_mem_cons.mp blocks
    refine law.bind numbered fun number => law.bind (here number) fun _ => ?_
    exact ih later

/-! ### Loops -/

section

variable {few many : Nat} {condition test : Run Bool} {body work : Run Unit}
  (sameTest : related _ condition test) (same : related _ (pass body) (pass work))
  (rounds : RoundsRelated related few many)

omit parts

include same

theorem counted (count : Nat) : related _ (counted body count) (counted work count) := by
  induction count with
  | zero => exact law.pure ()
  | succ count ih =>
    refine law.bind same fun pass => ?_
    cases pass with
    | broken => exact law.pure ()
    | finished | continued => exact ih

include rounds

theorem forever : related _ (forever body few) (forever work many) := by
  induction rounds with
  | none => exact law.exhausted
  | usedUp _ usedUp => exact usedUp _
  | more _ ih =>
    refine law.bind same fun pass => ?_
    cases pass with
    | broken => exact law.pure ()
    | finished | continued => exact ih

include sameTest

theorem untilHolds : related _ (untilHolds condition body few) (untilHolds test work many) := by
  induction rounds with
  | none => exact law.exhausted
  | usedUp _ usedUp => exact usedUp _
  | more _ ih =>
    refine law.bind sameTest fun held => ?_
    cases held with
    | true => exact law.pure ()
    | false =>
      refine law.bind same fun pass => ?_
      cases pass with
      | broken => exact law.pure ()
      | finished | continued => exact ih

theorem passUntil : related _ (passUntil condition body few) (passUntil test work many) := by
  induction rounds with
  | none => exact law.exhausted
  | usedUp _ usedUp => exact usedUp _
  | more _ ih =>
    refine law.bind same fun pass => ?_
    cases pass with
    | broken => exact law.pure ()
    | continued => exact ih
    | finished =>
      refine law.bind sameTest fun held => ?_
      cases held with
      | true => exact law.pure ()
      | false => exact ih

end

/-! ### Targets -/

variable {target content seconds x y size list : Expr} {α : Type} {body : List Stmt}
  {expressions : List Expr} {routes : List Route}

theorem readTarget (inside : target.Each known) (bears : Bears related target.targetMisfits) :
    related _ (one.readTarget target) (other.readTarget target) := by
  cases target with
  | identifier name => exact law.plain (isPlain_variableValue name)
  | property object name =>
    exact law.bind (parts.evaluate inside) fun value => law.readProperty value name
  | index object place =>
    refine law.bind (parts.evaluate inside.1) fun value => ?_
    refine law.bind (parts.evaluate inside.2) fun position => ?_
    exact law.bind (law.fromHeap fun heap => heap.item? value position) fun _ =>
      law.pure _
  | _ => exact bears _ mem_cons_self

theorem writeTarget (inside : target.Each known) (bears : Bears related target.targetMisfits)
    (value : Value) :
    related _ (one.writeTarget target value) (other.writeTarget target value) := by
  cases target with
  | identifier name => exact law.plain (isPlain_setVariable name value)
  | property object name =>
    refine law.bind (parts.evaluate inside) fun owner => ?_
    exact law.plain (isPlain_setProperty owner name value)
  | index object place =>
    refine law.bind (parts.evaluate inside.1) fun owner => ?_
    refine law.bind (parts.evaluate inside.2) fun position => ?_
    exact law.plain (isPlain_setItem owner position value)
  | _ => exact bears _ (mem_cons_of_mem _ mem_cons_self)

theorem changeTarget {amount : Expr} (kind : Change) (inside : target.Each known ∧ known amount)
    (bears : Bears related target.targetMisfits) :
    related _ (one.changeTarget target kind amount) (other.changeTarget target kind amount) := by
  cases kind with
  | becomes =>
    exact law.bind (parts.evaluate inside.2) fun value =>
      law.writeTarget parts inside.1 bears value
  | increase =>
    refine law.bind (parts.evaluate inside.2) fun value => ?_
    refine law.bind (law.readTarget parts inside.1 bears) fun current => ?_
    refine law.bind (law.plain (isPlain_withHeap _)) fun changed => ?_
    exact law.writeTarget parts inside.1 bears changed
  | decrease =>
    refine law.bind (parts.evaluate inside.2) fun value => ?_
    refine law.bind (law.readTarget parts inside.1 bears) fun current => ?_
    refine law.bind (law.plain (isPlain_withHeap _)) fun changed => ?_
    exact law.writeTarget parts inside.1 bears changed
  | unknown name => exact law.pure ()

/-! ### Items of lists -/

variable (value : Value) (name : String)

omit parts in
theorem withItem {action doing : Run α} (same : related α action doing) :
    related α (withItem value action) (withItem value doing) := by
  refine law.bind (law.plain (isPlain_look fun _ plain =>
    (plain.bindings.get? itemName).getD .nothing)) fun before => ?_
  refine law.bind (law.plain (isPlain_setVariable _ _)) fun _ => law.bind same fun result => ?_
  cases before with
  | nothing => exact law.bind (law.plain (isPlain_unset _)) fun _ => law.pure result
  | _ => exact law.bind (law.plain (isPlain_setVariable _ _)) fun _ => law.pure result

/-! ### Files -/

theorem writeFile (inside : known content) (name : String) :
    related _ (one.writeFile first content name) (other.writeFile second content name) := by
  refine law.checked .files fun allowed _ => ?_
  refine law.bind (parts.evaluate inside) fun value => law.bind (law.text value) fun text => ?_
  refine law.bind (law.files (fun files => files.write name text) (.inl allowed)) fun found => ?_
  cases found with
  | ok files => exact law.setFiles files allowed
  | error cause => exact law.failOutside fun _ => rfl

/-! ### Packages -/

omit parts in
/-- Work with packages is behind a check, too. -/
theorem checkedPackages {action doing : Run α}
    (same : first.Allow .packages → related α action doing) :
    related α (checkPackages first >>= fun _ => action)
      (checkPackages second >>= fun _ => doing) := by
  rw [checkPackages, checkPackages, bind_assoc, bind_assoc]
  refine law.bind law.packages fun packages => ?_
  split
  · exact law.report rfl
  · exact law.checked .packages fun allowed _ => same allowed

omit parts in
theorem fromFiles (view : FileTree → Except Refusal α)
    (allowed : first.Allow .packages) : related.Refl (fromFiles view) :=
  law.bind (law.files id (.inr allowed)) fun files => law.ofExcept (view files)

theorem load (path : Path) (allowed : first.Allow .packages) :
    related _ (one.load path) (other.load path) :=
  law.bind (law.fromFiles (fun files => files.readPath path) allowed) fun source =>
    parts.runPackage source allowed

theorem usePackage : related _ (one.usePackage first name) (other.usePackage second name) := by
  refine law.checkedPackages fun allowed => ?_
  refine law.bind (law.files (fun files => Package.bundled files name) (.inr allowed))
    fun bundled => ?_
  refine law.bind (law.fromFiles (fun files => files.has bundled) allowed)
    fun present => ?_
  cases present with
  | true => exact law.load parts bundled allowed
  | false =>
    refine law.bind (law.find name allowed) fun found => ?_
    refine law.bind (law.load parts found.entry allowed) fun _ => ?_
    exact law.noteLoaded _ _ allowed

omit parts in
theorem install : related _ (install first name) (install second name) := by
  refine law.checkedPackages fun allowed => law.bind (law.registry allowed) fun registry => ?_
  exact law.bind (law.changingFiles allowed) fun installed => law.plain (isPlain_write _ _)

/-! ### Time -/

theorem wait (inside : known seconds) :
    related _ (one.wait first seconds) (other.wait second seconds) := by
  refine law.checked .timers fun allowed _ => ?_
  exact law.bind (law.real parts.toExpressionParts inside) fun span => law.passTime span allowed

/-- Keeping a block for some time is related if what is done with the block is. -/
theorem timed (registration : Float → Registration) {told : Float → String} (inside : known seconds)
    (kept : first.Allow .timers → ∀ span told,
      related.Refl (register (registration span) body told)) :
    related _ (check first .timers >>= fun _ => one.real seconds >>= fun span =>
        register (registration span) body (told span))
      (check second .timers >>= fun _ => other.real seconds >>= fun span =>
        register (registration span) body (told span)) :=
  law.checked .timers fun allowed _ => law.bind (law.real parts.toExpressionParts inside) fun span =>
    kept allowed span _

omit parts in
theorem cron (schedule : String)
    (kept : first.Allow .cron → related.Refl (registerByCalendar schedule body)) :
    related _ (cron first schedule body) (cron second schedule body) :=
  law.checked .cron fun allowed _ => kept allowed

/-! ### Drawing and mouse clicks -/

omit parts in
theorem mapM {ι : Type} {items : List ι} {action doing : ι → Run α}
    (each : ∀ item ∈ items, related α (action item) (doing item)) :
    related _ (items.mapM action) (items.mapM doing) := by
  induction items with
  | nil => exact law.pure []
  | cons item rest ih =>
    obtain ⟨here, later⟩ := forall_mem_cons.mp each
    rw [mapM_cons, mapM_cons]
    refine law.bind here fun value => ?_
    exact law.bind (ih later) fun values => law.pure (value :: values)

theorem coordinates (inside : ∀ part ∈ expressions, known part) :
    related _ (one.coordinates expressions) (other.coordinates expressions) := by
  refine law.bind (law.mapM fun part member => ?_) fun numbers => law.mapM fun _ _ => law.text _
  exact law.whole parts.toExpressionParts (inside part member)

theorem drawCircle (inside : known x ∧ known y ∧ known size) (color : String) :
    related _ (one.drawCircle first x y size color) (other.drawCircle second x y size color) := by
  have each : ∀ part ∈ [x, y, size], known part := by simpa using inside
  refine law.checked .graphics fun _ _ => law.bind (law.coordinates parts each) fun numbers => ?_
  split
  · exact law.writeLine _
  · exact law.pure ()

theorem drawBetween (shape : String) {x₁ y₁ x₂ y₂ : Expr}
    (inside : known x₁ ∧ known y₁ ∧ known x₂ ∧ known y₂) (color : String) :
    related _ (one.drawBetween first shape x₁ y₁ x₂ y₂ color)
      (other.drawBetween second shape x₁ y₁ x₂ y₂ color) := by
  have each : ∀ part ∈ [x₁, y₁, x₂, y₂], known part := by simpa using inside
  refine law.checked .graphics fun _ _ => law.bind (law.coordinates parts each) fun numbers => ?_
  split
  · exact law.writeLine _
  · exact law.pure ()

theorem drawText (inside : known content ∧ known x ∧ known y ∧ known size) (color : String) :
    related _ (one.drawText first content x y size color)
      (other.drawText second content x y size color) := by
  have each : ∀ part ∈ [x, y, size], known part := by simpa using inside.2
  refine law.checked .graphics fun _ _ => law.bind (parts.evaluate inside.1) fun value => ?_
  refine law.bind (law.text value) fun text =>
    law.bind (law.coordinates parts each) fun numbers => ?_
  split
  · exact law.writeLine _
  · exact law.pure ()

theorem whenMouseClicks {canvas : Expr} (inside : known canvas)
    (kept : first.Allow .graphics → ∀ value, related.Refl (registerForClicks value body)) :
    related _ (one.whenMouseClicks first canvas body) (other.whenMouseClicks second canvas body) :=
  law.checked .graphics fun allowed _ => law.bind (parts.evaluate inside) fun value =>
    kept allowed value

/-! ### Servers -/

section

variable (answers : ∀ route ∈ routes, related Answer (answered (one.executeAll route.body))
    (answered (other.executeAll route.body))) (allowed : first.Allow .server)

omit parts

include answers allowed

theorem answer (incoming : Incoming) :
    related _ (one.answer routes incoming) (other.answer routes incoming) := by
  rw [Engine.answer, Engine.answer]
  dsimp only
  split
  · exact law.bind (law.pure _) fun reply => law.noteAnswer reply allowed
  · rename_i route found
    refine law.bind (law.plain (isPlain_announce incoming)) fun _ => ?_
    refine law.bind (answers route (mem_of_find?_eq_some found)) fun reply => ?_
    exact law.noteAnswer reply allowed

theorem answerAll (incoming : List Incoming) :
    related _ (one.answerAll routes incoming) (other.answerAll routes incoming) := by
  induction incoming with
  | nil => exact law.pure ()
  | cons request rest ih => exact law.bind (law.answer answers allowed request) fun _ => ih

variable (port : Int)

theorem serve : related _ (one.serve port routes) (other.serve port routes) := by
  rw [Engine.serve, Engine.serve]
  split
  · refine law.bind (law.writeLine _) fun _ => law.bind (law.incoming allowed) fun incoming => ?_
    exact law.answerAll answers allowed incoming
  · exact law.writeLine _

theorem startServer : related _ (one.startServer port routes) (other.startServer port routes) :=
  law.bind (law.noteServer port allowed) fun _ => law.serve answers allowed port

end

theorem server {port : Expr} (inside : known port) (routes : List Route)
    (started : first.Allow .server → ∀ number,
      related _ (one.startServer number routes) (other.startServer number routes)) :
    related _ (one.server first port routes) (other.server second port routes) := by
  refine law.checked .server fun allowed _ =>
    law.bind (law.whole parts.toExpressionParts inside) fun number => ?_
  refine law.bind law.hasScreen fun shown => ?_
  split
  · exact started allowed number
  · refine law.bind (law.text _) fun text => law.bind (law.writeLine _) fun _ => ?_
    exact law.plain (isPlain_showRoutes routes)

/-! ### Expressions -/

theorem reaches_call {name : String} {arguments : List Expr}
    (inside : ∀ argument ∈ arguments, known argument) :
    Engine.Reaches related first second one other (.call name arguments) :=
  ⟨fun own => parts.callRoutine own inside,
    fun builtin _ values => law.plain (isPlain_callSet builtin values)⟩

theorem valueOf {expression : Expr} (inside : expression.Each known)
    (bears : Bears related expression.misfits) :
    related _ (one.valueOf first expression) (other.valueOf second expression) := by
  refine law.toExpressionCongruence.valueOf parts.toExpressionParts inside bears ?_
  cases expression with
  | call name arguments => exact law.reaches_call parts inside
  | foreignCall path arguments =>
    exact fun allowed => ⟨fun name values => law.foreignResult name values allowed,
      fun inward => law.inward inward allowed⟩
  | filter list part | map list part => exact fun item => law.withItem item (parts.evaluate inside.2)
  | _ => trivial

/-! ### Statements -/

theorem texts (inside : ∀ part ∈ expressions, known part) :
    related _ (one.texts expressions) (other.texts expressions) := by
  induction expressions with
  | nil => exact law.pure []
  | cons expression rest ih =>
    obtain ⟨here, later⟩ := forall_mem_cons.mp inside
    refine law.bind (parts.evaluate here) fun value => law.bind (law.text value) fun text => ?_
    exact law.bind (ih later) fun others => law.pure (text :: others)

theorem showTable (headers : List String) {rows : Expr} (inside : known rows) :
    related _ (one.showTable headers rows) (other.showTable headers rows) := by
  refine law.bind (parts.evaluate inside) fun value => ?_
  cases value with
  | list address =>
    exact law.bind (law.fromHeap _) fun table => law.writeLine table
  | _ => exact law.report rfl

omit parts in
theorem ask (prompt name : String) (kind : AnswerKind) : related.Refl (ask prompt name kind) := by
  refine law.bind (law.plain (isPlain_write _ _)) fun _ => law.bind law.readLine fun line => ?_
  exact law.bind (law.plain (isPlain_withHeap _)) fun value =>
    law.plain (isPlain_setVariable name value)

theorem choose {cases : List Case} (known : ∀ case ∈ cases, known case.low ∧ known case.high)
    (inside : ∀ case ∈ cases,
      related Unit (one.executeAll case.body) (other.executeAll case.body)) :
    related _ (one.choose value cases) (other.choose value cases) := by
  induction cases with
  | nil => exact law.pure ()
  | cons case rest ih =>
    obtain ⟨here, knownLater⟩ := forall_mem_cons.mp known
    obtain ⟨body, later⟩ := forall_mem_cons.mp inside
    refine law.bind (parts.evaluate here.1) fun low => ?_
    refine law.bind (parts.evaluate here.2) fun high => ?_
    refine law.bind (law.lookHeap fun heap => fits heap value low high) fun fits => ?_
    cases fits with
    | true => exact body
    | false => exact ih knownLater later

theorem add {value : Expr} (inside : known list ∧ known value) :
    related _ (one.add list value) (other.add list value) := by
  refine law.bind (law.listAddress parts.toExpressionParts "add" inside.1) fun address => ?_
  refine law.bind (parts.evaluate inside.2) fun item => ?_
  exact law.bind (law.lookHeap fun heap => heap.items address) fun _ => law.put _ _

theorem remove {value place : Option Expr}
    (inside : known list ∧ known (place.getD (value.getD .absent))) :
    related _ (one.remove list value place) (other.remove list value place) := by
  refine law.bind (law.listAddress parts.toExpressionParts "remove" inside.1) fun address => ?_
  cases place with
  | some index =>
    refine law.bind (law.whole parts.toExpressionParts inside.2) fun position => ?_
    refine law.bind (law.lookHeap fun heap => heap.items address) fun items => ?_
    split
    · exact law.put _ _
    · exact law.pure ()
  | none =>
    refine law.bind (parts.evaluate inside.2) fun sought => ?_
    exact law.bind (law.lookHeap id) fun heap => law.put _ _

theorem sort (inside : known list) : related _ (one.sort list) (other.sort list) := by
  refine law.bind (law.listAddress parts.toExpressionParts "sort" inside) fun address => ?_
  refine law.bind (law.lookHeap id) fun heap => ?_
  generalize Sort.sorted _ (heap.items address) = result
  cases result with
  | ok sorted => exact law.put _ _
  | error stopped => exact law.bind (law.put _ _) fun _ => law.plain (isPlain_refuse _)

theorem reverse (inside : known list) : related _ (one.reverse list) (other.reverse list) := by
  refine law.bind (law.listAddress parts.toExpressionParts "reverse" inside) fun address => ?_
  exact law.bind (law.lookHeap fun heap => heap.items address) fun items => law.put _ _

theorem shuffle (inside : known list) : related _ (one.shuffle list) (other.shuffle list) := by
  refine law.bind (law.listAddress parts.toExpressionParts "shuffle" inside) fun address => ?_
  refine law.bind (law.lookHeap fun heap => heap.items address) fun items => ?_
  exact law.bind (law.plain (isPlain_shuffled _ _)) fun shuffled => law.put _ _

omit parts in
theorem useForeign (library boundName : String) : related _ (useForeign first library boundName)
      (useForeign second library boundName) := by
  refine law.checked .foreign fun _ _ => ?_
  exact law.bind (law.allowedLibrary library) fun _ =>
    law.plain (isPlain_setVariable _ _)

theorem carryOut {statement : Stmt} (inside : statement.Each known)
    (bears : Bears related statement.misfits)
    (blocks : Engine.Inside related first second one other statement) :
    related _ (one.carryOut first statement) (other.carryOut second statement) := by
  cases statement with
  | assign target value =>
    exact law.bind (parts.evaluate inside.2) fun value =>
      law.writeTarget parts inside.1 bears value
  | change target kind value => exact law.changeTarget parts kind inside bears
  | say expressions => exact law.bind (law.texts parts inside) fun _ => law.writeLine _
  | print value =>
    refine law.bind (parts.evaluate inside) fun value => ?_
    exact law.bind (law.text value) fun text => law.writeLine text
  | clearScreen => exact law.plain (isPlain_write _ _)
  | showTable headers rows => exact law.showTable parts headers inside
  | ask prompt name kind => exact law.ask prompt name kind
  | branch condition yes no =>
    refine law.bind (law.holds parts.toExpressionParts inside) fun held => ?_
    cases held with
    | true => exact blocks.1
    | false => exact blocks.2
  | repeatForever body =>
    exact law.forever blocks parts.rounds
  | repeatTimes count body =>
    exact law.bind (law.whole parts.toExpressionParts inside) fun number =>
      law.counted blocks number.toNat
  | repeatUntil condition body =>
    exact law.untilHolds (law.holds parts.toExpressionParts inside) blocks parts.rounds
  | doUntil body condition =>
    exact law.passUntil (law.holds parts.toExpressionParts inside) blocks parts.rounds
  | breakLoop | continueLoop | define name parameters body | server port routes => exact blocks
  | stop => exact law.plain (isPlain_throw rfl)
  | giveBack value =>
    cases value with
    | none => exact blocks .nothing
    | some value => exact law.bind (parts.evaluate (inside value rfl)) fun value => blocks value
  | choose subject cases =>
    exact law.bind (parts.evaluate inside.1) fun value => law.choose parts value inside.2 blocks
  | add list value => exact law.add parts inside
  | remove list value place => exact law.remove parts inside
  | sort list => exact law.sort parts inside
  | reverse list => exact law.reverse parts inside
  | shuffle list => exact law.shuffle parts inside
  | writeFile content name => exact law.writeFile parts inside name
  | drawCircle x y size color => exact law.drawCircle parts inside color
  | drawRectangle x₁ y₁ x₂ y₂ color => exact law.drawBetween parts "rectangle" inside color
  | drawLine x₁ y₁ x₂ y₂ color => exact law.drawBetween parts "line" inside color
  | drawText content x y size color => exact law.drawText parts inside color
  | whenMouseClicks canvas body => exact law.whenMouseClicks parts inside blocks
  | wait seconds => exact law.wait parts inside
  | after place seconds body => exact law.timed parts (.once place) inside blocks
  | every seconds body => exact law.timed parts .again inside blocks
  | usePackage name => exact law.usePackage parts name
  | install name => exact law.install name
  | useForeign library boundName => exact law.useForeign library boundName
  | job name seconds body => exact law.timed parts (.job name) inside blocks
  | stopJob name => exact law.stopJob name
  | cron schedule body => exact law.cron schedule blocks
  | call name arguments =>
    exact law.bind (law.call parts.toExpressionParts inside (law.reaches_call parts inside))
      fun _ => law.pure ()
  | misplaced | absent => exact bears _ mem_cons_self

end

end LocalCongruence

/-! ### All programs -/

namespace ProgramCongruence

variable {related : RunRelation} {first second : Settings} {one other : Engine}

section

variable (law : ProgramCongruence related first second) (parts : Engine.Related related one other)

include law parts

theorem block (body : List Stmt) : related _ (one.executeAll body) (other.executeAll body) :=
  law.executeAll fun statement _ => parts.execute statement

theorem toParts (oneHanding : one.handing = first.handing)
    (otherHanding : other.handing = second.handing) :
    Engine.AllParts related first one other where
  rounds := parts.rounds
  evaluate _ := parts.evaluate _
  callRoutine own _ := law.callRoutine parts oneHanding otherHanding own _
  runPackage := law.runPackage parts

omit parts in
theorem bears {misfits : List Report} (misfit : ∀ cause ∈ misfits, cause.isMisfit = true) :
    Bears related misfits :=
  fun cause member => law.misfit cause (misfit cause member)

theorem inside (whole : Engine.AllParts related first one other) (statement : Stmt) :
    Engine.Inside related first second one other statement := by
  cases statement with
  | branch _ yes no => exact ⟨law.block parts yes, law.block parts _⟩
  | repeatForever body | repeatTimes _ body | repeatUntil _ body | doUntil body _ =>
    exact law.pass (law.block parts body)
  | breakLoop | continueLoop => exact law.raise _
  | giveBack _ => exact fun _ => law.raise _
  | define name parameters body => exact law.define name parameters body
  | choose _ cases => exact fun case _ => law.block parts case.body
  | whenMouseClicks _ body => exact fun allowed canvas => law.clicks canvas body allowed
  | after _ _ body | every _ body | job _ _ body =>
    exact fun allowed span told => law.register _ body told allowed
  | cron schedule body => exact law.calendar schedule body
  | server port routes => exact law.server parts whole port routes
  | _ => trivial

end

/-- Expressions and statements are run in related ways, down to depths with related rounds. -/
theorem ofDepths (law : ProgramCongruence related first second) {few many : Nat}
    (rounds : RoundsRelated related few many) :
    Engine.Related related (ofDepth first few) (ofDepth second many) := by
  induction rounds with
  | none => exact ⟨.none, fun _ => law.exhausted, fun _ => law.exhausted⟩
  | usedUp many usedUp => exact ⟨.usedUp many usedUp, fun _ => usedUp _, fun _ => usedUp _⟩
  | @more few many rounds ih =>
    have parts := law.toParts ih rfl rfl
    refine ⟨.more rounds, fun expression => ?_, fun statement => ?_⟩
    · show related _ (Parlance.evaluate first (few + 1) expression)
        (Parlance.evaluate second (many + 1) expression)
      rw [Parlance.evaluate, Parlance.evaluate]
      exact law.reporting _ (law.valueOf parts (Expr.each_of_forall (fun _ => trivial) expression)
        (law.bears fun _ => Expr.isMisfit_of_mem_misfits))
    · show related _ (Parlance.execute first (few + 1) statement)
        (Parlance.execute second (many + 1) statement)
      rw [Parlance.execute, Parlance.execute]
      exact law.reporting _ (law.carryOut parts (Stmt.each_of_forall (fun _ => trivial) statement)
        (law.bears fun _ => Stmt.isMisfit_of_mem_misfits)
        (law.inside ih parts statement))

/-- Expressions and statements are run in related ways, down to any depth. -/
theorem ofDepth (law : ProgramCongruence related first second) (depth : Nat) :
    Engine.Related related (ofDepth first depth) (ofDepth second depth) :=
  law.ofDepths (.refl depth)

end ProgramCongruence

/-- What makes a local congruence one that calls respect: it holds for what a call finds, and it is
kept where a function is run. -/
structure CallCongruence (related : RunRelation) (first second : Settings) : Prop
    extends LocalCongruence related first second where
  newEdition : related Nat newEdition newEdition
  routine (name : String) : related.Refl (routine name)
  openScope : related _ (openScope first.handing) (openScope second.handing)
  inEdition {α : Type} (edition : Edition) {one other : Run α} : related α one other →
    related α (inEdition edition one) (inEdition edition other)
  inScope {α : Type} (scope : Scope Value Routine) {one other : Run α} : related α one other →
    related α (inScope scope one) (inScope scope other)
  givenBack {one other : Run Unit} : related Unit one other →
    related Value (givenBack one) (givenBack other)
  namingFunction {name : String} {one other : Run Value} : Builtin.ofName? name = none →
    related Value one other → related Value (namingFunction name one) (namingFunction name other)

namespace CallCongruence

variable {related : RunRelation} {first second : Settings} {one other : Engine}
  (law : CallCongruence related first second) (parts : Engine.Related related one other)

include law parts

theorem runBlock (block : Block) : related _ (one.runBlock block) (other.runBlock block) :=
  law.inEdition block.edition (law.executeAll fun statement _ => parts.execute statement)

theorem runProgram (program : List Stmt) :
    related _ (one.runProgram program) (other.runProgram program) :=
  law.runProgram_of_blocks law.newEdition fun _ _ _ => law.runBlock parts _

theorem callRoutine (oneHanding : one.handing = first.handing)
    (otherHanding : other.handing = second.handing) {name : String}
    (own : Builtin.ofName? name = none) (arguments : List Expr) :
    related _ (one.callRoutine name arguments) (other.callRoutine name arguments) := by
  refine law.namingFunction own (law.bind (law.routine name) fun function => ?_)
  refine law.bind (law.evaluateAll fun argument _ => parts.evaluate argument) fun values => ?_
  rw [oneHanding, otherHanding]
  refine law.bind law.openScope fun scope => ?_
  exact law.inScope _ (law.givenBack (law.runBlock parts function.block))

theorem server (whole : Engine.AllParts related first one other)
    (answers : ∀ {one other : Run Unit}, related Unit one other →
      related Answer (answered one) (answered other)) (port : Expr) (routes : List Route) :
    related Unit (one.server first port routes) (other.server second port routes) := by
  refine law.toLocalCongruence.server whole trivial routes fun allowed number => ?_
  refine law.startServer (fun route _ => answers ?_) allowed number
  exact law.executeAll fun statement _ => parts.execute statement

end CallCongruence

namespace ServerlessCongruence

variable {related : RunRelation} {first second : Settings} {one other : Engine}
  (law : ServerlessCongruence related first second)

include law

theorem throw {α : Type} (exit : Exit) : related.Refl (MonadExcept.throw exit : Run α) :=
  law.inner (isInner_throw exit)

theorem openScope (handing : Handing) : related.Refl (openScope handing) := by
  cases handing with
  | copies =>
    refine law.bind (law.inner (isInner_look fun _ inner => inner.functions.any fun function =>
      inner.heap.holdsLibrary inner.heap.next [] (function.2.captured.map Prod.snd)))
      fun captures => ?_
    cases captures with
    | true => exact law.bind (law.note .refusal) fun _ => law.fail rfl
    | false =>
      refine law.bind (law.inner isInner_newEdition) fun number => ?_
      exact law.inner (isInner_look fun _ inner => Scope.mk []
        (inner.functions.map fun function => (function.1, function.2.copy number)) (some number))
  | nothing => exact law.bind (law.inner isInner_newEdition) fun number => law.pure _

theorem calls : CallCongruence related first second where
  toLocalCongruence := law.toLocalCongruence
  newEdition := law.inner isInner_newEdition
  routine name := law.inner (isInner_routine name)
  openScope := law.handing ▸ law.openScope first.handing
  inEdition := law.inEdition
  inScope := law.inScope
  givenBack := law.givenBack
  namingFunction _ := law.namingFunction _

theorem runBlock (parts : Engine.Related related one other) (block : Block) :
    related _ (one.runBlock block) (other.runBlock block) :=
  law.calls.runBlock parts block

theorem runSource (parts : Engine.Related related one other) (source : String) :
    related _ (one.runSource source) (other.runSource source) :=
  law.bind (law.inner (isInner_program source)) (law.calls.runProgram parts)

theorem toProgramCongruence (server : ∀ {one other : Engine}, Engine.Related related one other →
      Engine.AllParts related first one other → ∀ port routes,
        related Unit (one.server first port routes) (other.server second port routes)) :
    ProgramCongruence related first second where
  toLocalCongruence := law.toLocalCongruence
  misfit _ _ := law.throw _
  register registration body told allowed := law.bind (law.inner (isInner_keep body))
    fun block => law.schedule _ told allowed (registration.isTimerChange block)
  calendar schedule body allowed := law.bind (law.inner (isInner_keep body)) fun block =>
    law.scheduleByCalendar schedule block allowed
  clicks canvas body allowed := law.bind (law.inner (isInner_keep body)) fun block =>
    law.keepForClicks canvas block allowed
  reporting := law.reporting
  pass := law.pass
  server := server
  raise _ := law.throw _
  define name parameters body := law.inner (isInner_define name parameters body)
  callRoutine := law.calls.callRoutine
  runPackage parts source _ :=
    law.bind (law.note (.package source)) fun _ => law.runSource parts source

end ServerlessCongruence

namespace Congruence

variable {related : RunRelation} {first second : Settings}

theorem programs (law : Congruence related first second) :
    ProgramCongruence related first second :=
  law.toProgramCongruence fun parts whole => law.calls.server parts whole law.answered

/-- Expressions and statements are run in related ways, down to any depth. -/
theorem ofDepth (law : Congruence related first second) (depth : Nat) :
    Engine.Related related (ofDepth first depth) (ofDepth second depth) :=
  law.programs.ofDepth depth

end Congruence

end Parlance
