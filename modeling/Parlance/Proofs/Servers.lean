import Parlance.Proofs.CountedLoops

/-!
Servers whose routes are closed one by one. The block of a route has no closing word of its own: it
goes up to the next route or to the `end` of the server.
-/

namespace Parlance

open List Parse

/-- A route that is written with an `end` of its own. -/
structure ClosedRoute where
  word : RouteWord
  path : String
  body : List Token

namespace ClosedRoute

/-- The tokens of a route, up to the end of its last line. -/
def tokens (route : ClosedRoute) : List Token :=
  .symbol .when :: (route.word.tokens ++ .string route.path :: .symbol .newline ::
    (route.body ++ [.symbol .newline, .symbol .endWord, .symbol .newline]))

/-- The tokens of a server with such routes. -/
def server (port : Printable) (routes : List ClosedRoute) : List Token :=
  .symbol .server :: .symbol .onWord :: .symbol .port :: (port.tokens ++ .symbol .newline ::
    (routes.flatMap tokens ++ [.symbol .endWord]))

/-- Why reading fails after the first route: no statement begins with `end`, and a statement that
begins with `when` is about mouse clicks. -/
def failure : List ClosedRoute → ParseFailure
  | [] => .stalled
  | route :: _ => .error (.expected "MOUSE" (route.word.tokens ++ [Token.string route.path]).head?)

end ClosedRoute

/-- Whether a statement keeps a block for mouse clicks. -/
def Stmt.isClickHandler : Stmt → Bool
  | .whenMouseClicks _ _ => true
  | _ => false

namespace Parse

variable {token : Token} {tokens rest : List Token} {value : Option Stmt} {program : List Stmt}

theorem isClickHandler_of_statement
    (read : statement (.symbol .when :: tokens) = .ok (value, rest)) :
    value.any Stmt.isClickHandler = true := by
  obtain ⟨begun, -⟩ := orStall_eq_ok.mp read
  obtain ⟨_, _, -, begun⟩ := ok_of_bind ((statementOf_sign rfl rfl _).symm.trans begun)
  obtain ⟨canvas, _, -, begun⟩ := ok_of_bind begun
  obtain ⟨body, _, -, finished⟩ := ok_of_bind begun
  cases finished
  rfl

/-- Where no statement of a program is about mouse clicks, none begins with a word that ends the
block of a route. -/
theorem ne_clause_of_statement (apart : program.any Stmt.isClickHandler = false)
    (inside : ∀ statement ∈ value, statement ∈ program)
    (read : statement (token :: tokens) = .ok (value, rest)) :
    isAmong [.when, .endWord] token = false := by
  refine Bool.eq_false_iff.mpr fun among => ?_
  obtain ⟨sign, member, rfl⟩ := isAmong_iff.mp among
  rcases mem_pair.mp member with rfl | rfl
  · obtain ⟨found, here, clicks⟩ := Option.any_eq_true _ _ |>.mp (isClickHandler_of_statement read)
    exact Bool.eq_false_iff.mp apart (any_eq_true.mpr ⟨found, inside found here, clicks⟩)
  · cases ne_end_of_statement read

/-- A route with an `end` of its own is read up to that `end`. -/
theorem route_closed {route : ClosedRoute} {inner : Bound} (passage : Passage route.body)
    (read : parse (route.body ++ [.symbol .endOfText]) = .ok program)
    (apart : program.any Stmt.isClickHandler = false)
    (room : route.body.length + 2 ≤ inner.length) (following : List Token) :
    Parse.route (statementAt inner) (route.tokens ++ following) =
      .ok (.mk route.word.method route.path program,
        .symbol .endWord :: .symbol .newline :: following) := by
  have block := block_enclosed (by decide : .endWord ∈ [Symbol.when, .endWord]) passage read
    (fun _ _ _ _ => ne_clause_of_statement apart) room (.symbol .newline :: following)
  simp only [ClosedRoute.tokens, cons_append, append_assoc, nil_append]
  refine (expect_bind .when _ _).trans
    ((bind_ok (WrittenRoute.routeMethod_reads route.word route.path _)).trans ?_)
  rw [expectString_bind]
  exact bind_ok block

/-- What stands after the first route is neither the end of the text nor a statement. -/
theorem reads_after_route (others : List ClosedRoute) (after : List Token) :
    let rest := others.flatMap ClosedRoute.tokens ++ .symbol .endWord :: after
    afterNewlines (.symbol .newline :: rest) = rest ∧ rest.head?.any (isAmong [.endOfText]) = false ∧
      statement rest = .error (ClosedRoute.failure others) := by
  cases others with
  | nil => exact ⟨rfl, rfl, orAlarm_of_stuck (stuck_word rfl rfl after) silent _⟩
  | cons route others =>
    obtain ⟨word, path, body⟩ := route
    cases word <;> exact ⟨rfl, rfl, rfl⟩

end Parse

/-- A server with an `end` after each of its routes is read as a server with the first route only,
and then reading fails. -/
theorem server_ends_with_first_route (port : Printable) (first : ClosedRoute)
    (others : List ClosedRoute) (after : List Token) {program : List Stmt} {source : String}
    (passage : Passage first.body)
    (read : parse (first.body ++ [.symbol .endOfText]) = .ok program)
    (apart : program.any Stmt.isClickHandler = false)
    (written : (tokens source).toOption =
      some (ClosedRoute.server port (first :: others) ++ after)) :
    statement (ClosedRoute.server port (first :: others) ++ after) =
        .ok (some (.server port.1 [.mk first.word.method first.path program]), .symbol .newline ::
          (others.flatMap ClosedRoute.tokens ++ .symbol .endWord :: after)) ∧
      parse (ClosedRoute.server port (first :: others) ++ after) =
        .error (ClosedRoute.failure others) ∧
      program? source = none := by
  generalize following : others.flatMap ClosedRoute.tokens ++ .symbol .endWord :: after = rest
  have whole : ClosedRoute.server port (first :: others) ++ after =
      .symbol .server :: .symbol .onWord :: .symbol .port :: (port.tokens ++ .symbol .newline ::
        (first.tokens ++ rest)) := by
    rw [← following]
    simp [ClosedRoute.server]
  obtain ⟨begun, going, failed⟩ := reads_after_route others after
  rw [following] at begun going failed
  rw [whole] at written ⊢
  generalize found : Token.symbol .onWord :: .symbol .port :: (port.tokens ++ .symbol .newline ::
    (first.tokens ++ rest)) = tokens at written ⊢
  have room : first.body.length + 2 ≤ (Token.symbol .server :: tokens).length := by
    rw [← found]
    simp only [ClosedRoute.tokens, length_cons, length_append]
    omega
  have shorter : rest.length + 2 < (first.tokens ++ rest).length := by
    simp only [ClosedRoute.tokens, length_cons, length_append]
    omega
  have routes := (LineItems.clause (by decide) (route_closed passage read apart room rest)
    (Nat.le_of_lt_succ shorter) (.none rfl)).lines (.symbol .newline :: (first.tokens ++ rest)) rfl
  have server : statement (.symbol .server :: tokens) =
      .ok (some (.server port.1 [.mk first.word.method first.path program]),
        .symbol .newline :: rest) := by
    refine orStall_eq_ok.mpr ⟨(statementOf_sign rfl rfl tokens).trans ?_, by rintro ⟨⟩⟩
    rw [← found] at routes ⊢
    refine (expectAll_bind [.onWord, .port] _ _).trans ?_
    refine (bind_ok (port.reads .newline rfl _)).trans ?_
    exact (bind_ok routes).trans (expect_bind .endWord _ _)
  have parsed : parse (.symbol .server :: tokens) = .error (ClosedRoute.failure others) := by
    have lines : linesWithin [.endOfText] statement (Bound.ofTokens (.symbol .server :: tokens))
        (.symbol .server :: tokens) = .error (ClosedRoute.failure others) := by
      refine (linesWithin_going_eq rfl _ _).trans ((bind_ok server).trans ?_)
      refine (skipNewlines_bind _ _).trans ?_
      rw [begun]
      exact bind_error ((linesWithin_going_eq going _ _).trans (bind_error failed))
    have begins : afterNewlines (.symbol .server :: tokens) = .symbol .server :: tokens := rfl
    rw [parse_eq, begins, lines]
    rfl
  refine ⟨server, parsed, ?_⟩
  rw [program?, written]
  exact congrArg Except.toOption parsed

/-- A route with a loop, after which the `end` of the server is left over. -/
theorem server_ends_with_route_of_loop :
    let port : Printable := ⟨.number (.int 80), .ofFactor (.number _)⟩
    let route : ClosedRoute := ⟨.add, "/", [.symbol .repeatWord, .symbol .forever, .symbol .newline,
      .symbol .say, .number (.int 1), .symbol .newline, .symbol .endWord]⟩
    let whole := ClosedRoute.server port [route] ++ [.symbol .endOfText]
    parse (route.body ++ [.symbol .endOfText]) = .ok [.repeatForever [.say [.number (.int 1)]]] ∧
      statement whole =
        .ok (some (.server port.1 [.mk "POST" "/" [.repeatForever [.say [.number (.int 1)]]]]),
          [.symbol .newline, .symbol .endWord, .symbol .endOfText]) ∧
      parse whole = .error .stalled ∧
      program? "server on port 80\nwhen add \"/\"\nrepeat forever\nsay 1\nend\nend\nend" = none :=
  ⟨rfl, server_ends_with_first_route _ _ [] [.symbol .endOfText] ⟨by decide, by decide⟩ rfl rfl
    (by decide +kernel)⟩

/-- A server as it is documented is no program. -/
theorem documented_server_is_not_read :
    program? "server on port 3000
  when get \"/\"
    say \"hello world\"
  end
  when add \"/score\"
    return \"ok\"
  end
end" = none := by
  decide +kernel

end Parlance
