import Parlance.Proofs.Agreement

/-!
Debugging changes nothing about a program that comes to its end. A run in which reports end the run
and which ends with a result or with a signal has met no fault, apart from those that a server keeps
to itself.
-/

namespace Parlance

open Run

variable {α : Type}

def Settings.withDebug (settings : Settings) (debug : Bool) : Settings := { settings with debug }

namespace Run

/-- Whether a run ends with a result or with a signal. -/
def endsFreely : EStateM.Result Exit World α → Bool
  | .ok _ _ => true
  | .error (.signal _) _ => true
  | .error _ _ => false

variable (settings : Settings)

/-- With debugging every report ends the run. -/
theorem reporting_debug (value : α) (action : Run α) :
    reporting (settings.withDebug true) value action = action := by
  funext world
  rw [reporting]
  split
  · rename_i ended
    rw [ended]
    rfl
  · rfl

/-- Without debugging nothing but a report is held up. -/
theorem reporting_of_endsFreely (value : α) {action : Run α} {world : World}
    (free : endsFreely (action world) = true) :
    reporting settings value action world = action world := by
  rw [reporting]
  split
  · rename_i ended
    rw [ended] at free
    cases free
  · rfl

end Run

/-! ### Without servers and faults -/

/-- The condition that no server is started, that no call outside the language reaches into the run,
and that the run ends with a result or a signal. -/
def Proviso.serverless : Proviso where
  tally world := world.servers.length + world.reaches
  holds _ := True
  passes exit := ∃ signal, exit = .signal signal
  change := id

namespace Proviso

variable (world : World) (settings : Settings)

/-- The condition is met by runs that end freely, if no server is started and nothing reaches in. -/
theorem serverless_admits_iff (result : EStateM.Result Exit World α) :
    serverless.Admits world result ↔
      serverless.tally (final result) = serverless.tally world ∧ endsFreely result = true := by
  cases result with
  | ok value after => exact (and_iff_left rfl).symm
  | error exit after =>
    cases exit with
    | signal signal => exact and_congr_right' (iff_of_true ⟨signal, rfl⟩ rfl)
    | _ => exact and_congr_right' (iff_of_false nofun nofun)

/-- A fault does not meet the condition. -/
theorem serverless_not_admits (world after : World) (cause : Fault) :
    ¬ serverless.Admits world (.error (.fault cause) after : EStateM.Result Exit World α) :=
  nofun

theorem serverless_kept {before after : World} (noted : before.reaches ≤ after.reaches)
    (same : after.servers = before.servers) : serverless.Kept before after :=
  ⟨Nat.add_le_add (Nat.le_of_eq (congrArg List.length same.symm)) noted, fun _ _ => trivial⟩

theorem servers_leave : world.leave.servers = world.servers := by
  rw [World.leave]
  split <;> rfl

/-- Servers are started and never forgotten. -/
theorem preserved_serverless : Preserved serverless.Kept settings where
  refl _ := serverless_kept Nat.le.refl rfl
  trans := Kept.trans
  inner _ _ := serverless_kept Nat.le.refl rfl
  note world note := serverless_kept (world.reaches_note note) rfl
  inward world reach _ := .of_lt (Nat.add_lt_add_left (world.reaches_reached reach) _)
  inScope scope _ keeps := keeps_inScope (fun _ _ => serverless_kept Nat.le.refl rfl)
    (fun world => serverless_kept (Nat.le_of_eq world.reaches_leave.symm) (servers_leave world))
    scope keeps
  network _ _ _ _ := serverless_kept Nat.le.refl rfl
  files _ _ _ := serverless_kept Nat.le.refl rfl
  packages _ _ _ := serverless_kept Nat.le.refl rfl
  sleep _ _ _ := serverless_kept Nat.le.refl rfl
  time _ _ _ _ _ _ := serverless_kept Nat.le.refl rfl
  timer _ _ _ _ _ _ := serverless_kept Nat.le.refl rfl
  stopping _ _ _ _ := serverless_kept Nat.le.refl rfl
  calendar _ _ _ _ _ := serverless_kept Nat.le.refl rfl
  screen _ _ _ := serverless_kept Nat.le.refl rfl
  server _ _ _ := .of_lt (Nat.add_lt_add_right (Nat.lt_succ_self _) _)
  answer _ _ _ := serverless_kept Nat.le.refl rfl

theorem serverless_fits : serverless.Fits settings where
  preserved := preserved_serverless settings
  outer := isOuter_id
  signals signal := ⟨signal, rfl⟩
  renamed _ _ := nofun
  inner _ _ := ⟨rfl, id⟩
  enter _ _ := ⟨rfl, id⟩
  leave world :=
    congrArg₂ (· + ·) (congrArg List.length (servers_leave world)) world.reaches_leave
  reached world reach := Nat.add_lt_add_left (world.reaches_reached reach) _

/-- With debugging, what fails outside shows its own fault. -/
theorem agree_failOutside (wording : String → Report) (cause : Refusal) :
    serverless.Agree α (failOutside (settings.withDebug true) wording cause)
      (failOutside (settings.withDebug false) wording cause) :=
  agree_of_not_admits _ (fun _ => serverless_kept Nat.le.refl rfl) fun world =>
    serverless_not_admits world world cause.fault

theorem agree_withHeap {loud quiet : Heap → Except Refusal (α × Heap)}
    (same : ∀ heap result, loud heap = .ok result → quiet heap = .ok result) :
    serverless.Agree α (withHeap loud) (withHeap quiet) := by
  refine ⟨fun world => ?_, fun world _ admitted => ?_⟩
  · rw [withHeap]
    split <;> exact serverless_kept Nat.le.refl rfl
  · show withHeap quiet world = mapState id (withHeap loud world)
    rw [withHeap] at admitted
    rw [mapState_id, withHeap, withHeap]
    cases ended : loud world.heap with
    | ok result => rw [same world.heap result ended]
    | error cause =>
      rw [ended] at admitted
      exact absurd admitted (serverless_not_admits world world cause.fault)

theorem agree_foreignResult (name : String) (values : List Value) :
    serverless.Agree Value (Engine.foreignResult (settings.withDebug true) name values)
      (Engine.foreignResult (settings.withDebug false) name values) := by
  have fits := serverless_fits settings
  refine .bind (fits.agree_inner (isPlain_within _).isInner) fun _ => ?_
  refine .bind (fits.agree_inner isPlain_draw.isInner) fun drawn => ?_
  refine agree_withHeap fun heap result ended => ?_
  dsimp only at ended ⊢
  split at ended
  · cases ended
  · exact ended

/-- Where a report does not end the run, the run has agreed so far. -/
theorem agree_reporting (value : α) {one other : Run α} (head : serverless.Agree α one other) :
    serverless.Agree α (reporting (settings.withDebug true) value one)
      (reporting (settings.withDebug false) value other) := by
  rw [reporting_debug]
  refine ⟨head.keeps, fun world held admitted => ?_⟩
  have same : other world = one world := head.eq_of_still rfl held admitted
  show reporting _ value other world = mapState id (one world)
  rw [mapState_id, ← same]
  refine reporting_of_endsFreely _ value ?_
  rw [same]
  exact ((serverless_admits_iff world _).mp admitted).2

theorem serverless_compares :
    serverless.Compares (settings.withDebug true) (settings.withDebug false) where
  toFits := serverless_fits _
  still := rfl
  handing := rfl
  checked activity one other inside := related_checked serverless.Agree rfl activity one other
    inside ((serverless_fits settings).agree_inner (isInner_throw _))
  failOutside := agree_failOutside settings
  foreignResult := agree_foreignResult settings
  found _ _ := (serverless_fits settings).agree_inner (isInner_ofExcept _)
  reporting := fun value _ _ head => agree_reporting settings value head

/-- Where a server is started the condition is not met. -/
theorem lt_startServer {engine : Engine}
    (keeps : ∀ statement, (engine.execute statement).Keeps serverless.Kept) (port : Int)
    (routes : List Route) (allowed : settings.Allow .server) (world : World) :
    serverless.tally world < serverless.tally (final (engine.startServer port routes world)) := by
  have served := (preserved_serverless settings).keeps_serve keeps port routes allowed
    { world with servers := port :: world.servers }
  exact Nat.lt_of_lt_of_le (Nat.add_lt_add_right (Nat.lt_succ_self _) _) served.1

theorem agree_server {one other : Engine} (related : Engine.Related serverless.Agree one other)
    (parts : Engine.AllParts serverless.Agree (settings.withDebug true) one other) (port : Expr)
    (routes : List Route) :
    serverless.Agree Unit (one.server (settings.withDebug true) port routes)
      (other.server (settings.withDebug false) port routes) :=
  (serverless_compares settings).serverlessCongruence.server parts trivial routes
    fun allowed number => agree_of_lt _ fun world =>
      lt_startServer _ (fun statement => (related.execute statement).keeps) number routes allowed
        world

end Proviso

theorem agree_ofDepth (settings : Settings) (depth : Nat) :
    Engine.Related Proviso.serverless.Agree (Engine.ofDepth (settings.withDebug true) depth)
      (Engine.ofDepth (settings.withDebug false) depth) := by
  have law := (Proviso.serverless_compares settings).serverlessCongruence
  exact (law.toProgramCongruence (Proviso.agree_server settings)).ofDepth depth

/-! ### Nothing else changes -/

/-- Whether a run ends freely, has started no server, and nothing outside has reached into it. -/
def Run.SettlesAlone (world : World) (result : EStateM.Result Exit World α) : Prop :=
  endsFreely result = true ∧ (final result).servers = world.servers ∧
    (final result).reaches = world.reaches

theorem Run.SettlesAlone.admits {world : World} {result : EStateM.Result Exit World α}
    (alone : Run.SettlesAlone world result) : Proviso.serverless.Admits world result :=
  (Proviso.serverless_admits_iff world result).mpr
    ⟨congrArg₂ (· + ·) (congrArg List.length alone.2.1) alone.2.2, alone.1⟩

/-- Debugging is conservative. A program, a block or an expression that ends with a result or a
signal under debugging, has started no server, and has called nothing outside the language that
reached into the run, ends in the same way without debugging and leaves the same world: what is
written, all scopes with their variables and functions, the heap, what waits for its time, the files
and the requests to the network. -/
theorem debugging_is_conservative (settings : Settings) (depth : Nat) (world : World) :
    let loud := Engine.ofDepth (settings.withDebug true) depth
    let quiet := Engine.ofDepth (settings.withDebug false) depth
    (∀ program, Run.SettlesAlone world (loud.runProgram program world) →
      quiet.runProgram program world = loud.runProgram program world) ∧
    (∀ block, Run.SettlesAlone world (loud.executeAll block world) →
      quiet.executeAll block world = loud.executeAll block world) ∧
    ∀ expression, Run.SettlesAlone world (loud.evaluate expression world) →
      quiet.evaluate expression world = loud.evaluate expression world := by
  intro loud quiet
  have law := (Proviso.serverless_compares settings).serverlessCongruence
  have related := agree_ofDepth settings depth
  refine ⟨fun program alone => ?_, fun block alone => ?_, fun expression alone => ?_⟩
  · exact (law.calls.runProgram related program).eq_of_still rfl trivial alone.admits
  · exact (law.executeAll fun statement _ => related.execute statement).eq_of_still rfl trivial
      alone.admits
  · exact (related.evaluate expression).eq_of_still rfl trivial alone.admits

/-- A block is kept for later, a function is called in a loop with what a request gives, and a
signal ends the program. -/
theorem debugging_is_conservative_up_to_stop :
    let settings : Settings := { permissions := ⟨fun _ => true⟩ }
    let world : World :=
      { files := .bare
        scheduler := some { isVirtual := true }
        screen := some []
        replies := some [.content (.boolean true)] }
    let program : List Stmt :=
      [.define "pick" ["flag"] [.giveBack (some (.identifier "flag"))],
        .after 0 (.number (.int 3)) [.print (.string "late")],
        .repeatForever [.print (.call "pick" [.get "address" []]), .breakLoop],
        .print (.boolean false), .stop, .print (.string "never")]
    let loud := (Engine.ofDepth (settings.withDebug true) 7).runProgram program world
    let quiet := (Engine.ofDepth (settings.withDebug false) 7).runProgram program world
    Run.SettlesAlone world loud ∧ quiet = loud ∧
      (final quiet).written = [(.output, "False\n"), (.output, "True\n")] ∧
      (final quiet).outgoing.length = 1 := by
  intro settings world program loud quiet
  have free : endsFreely loud = true := by decide +kernel
  have alone : Run.SettlesAlone world loud := ⟨free, by decide +kernel, by decide +kernel⟩
  have written : (final quiet).written = [(.output, "False\n"), (.output, "True\n")] := by
    decide +kernel
  have asked : (final quiet).outgoing.length = 1 := by decide +kernel
  exact ⟨alone, (debugging_is_conservative settings 7 world).1 program alone, written, asked⟩

/-- A program writes whether it is debugged, by a call outside the language that reaches into the
run. -/
theorem debugging_is_seen_from_outside :
    let settings : Settings := { permissions := ⟨fun _ => true⟩ }
    let world : World := { files := .bare }
    let program : List Stmt := [.say [.foreignCall "re.enum.bltns.eval" [.string "self.debug"]]]
    let result (debug : Bool) := (Engine.ofDepth (settings.withDebug debug) 4).runProgram program world
    endsFreely (result true) = true ∧
      (final (result true)).written = [(.output, "True\n")] ∧
      (final (result false)).written = [(.output, "False\n")] := by
  decide +kernel

end Parlance
