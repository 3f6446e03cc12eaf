import ComputePlane.Gateway.Service
import ComputePlane.Proofs.World.Simulation

/-!
# Requests without the key

Whether a request shows the key is read off its first `authorization` header alone
(`showsKey_iff`). A request that does not show it is told so, and asks for nothing on the way: no
call is made for it and no job submitted, whatever else it holds and whatever state the cloud is in
(`key_required`). A request that shows it gets the answer of its route.
-/

namespace ComputePlane.Gateway

open Program

variable {s : AdapterSettings} {key : String} {r : HttpRequest} {draws : Draws} {route : Route}

/-! ## The key -/

/-- What the first `authorization` header of a request says. -/
def authorization? (r : HttpRequest) : Option String :=
  (r.headers.find? (Text.sameFolded "authorization" ·.1)).map (·.2)

/-- A request shows the key if its first `authorization` header names it, and every character of the
key can be shown. -/
theorem showsKey_iff : showsKey key r = true ↔
    authorization? r = some ("Bearer " ++ key) ∧ ∀ c ∈ key.toList, isPlain c = true := by
  have hscheme : "Bearer ".toList.all isPlain = true := by decide
  rw [showsKey, decide_eq_true_eq, header?, Option.filter_eq_some_iff, String.toList_append,
    List.all_append, hscheme, Bool.true_and, List.all_eq_true]
  rfl

/-! ## Answers -/

/-- The answer to a request that does not show the key. The answer to `HEAD` has no content. -/
def refusal (method : String) : HttpAnswer :=
  if method = "HEAD" then .bare 401
  else ⟨⟨401⟩, .json (.record [("error", .text "unauthorized")])⟩

/-- The answer of a route to a method. -/
def handle (s : AdapterSettings) (r : HttpRequest) (draws : Draws) (route : Route)
    (method : String) : Program HttpAnswer :=
  match route.action? method with
  | none => return .bare 405
  | some action => perform s r draws action

/-- What is carried out does not depend on the method that has asked for it. -/
theorem perform_withMethod (s : AdapterSettings) (r : HttpRequest) (draws : Draws)
    (method : String) (action : Action) :
    perform s { r with method := method } draws action = perform s r draws action := by
  cases action <;> rfl

theorem serve_of_route (hroute : Route.ofPath? (Target.ofText r.uri).path = some route)
    (method : String) :
    serve s { r with method := method } draws = handle s r draws route method := by
  unfold serve handle
  simp only [hroute]
  cases route.action? method with
  | none => rfl
  | some action => exact perform_withMethod s r draws method action

theorem respond_of_not_showsKey (h : ¬showsKey key r = true) :
    respond s key r draws = .done (refusal r.method) := by
  have hget : ¬showsKey key { r with method := "GET" } = true := h
  unfold respond guarded refusal
  rw [if_neg h, if_neg hget]
  split <;> rfl

theorem respond_of_showsKey (h : showsKey key r = true)
    (hroute : Route.ofPath? (Target.ofText r.uri).path = some route) :
    respond s key r draws =
      if r.method = "HEAD" then (·.withoutContent) <$> handle s r draws route "GET"
      else handle s r draws route r.method := by
  have hget : showsKey key { r with method := "GET" } = true := h
  unfold respond guarded
  rw [if_pos h, if_pos hget, serve_of_route hroute]
  split
  · rfl
  · exact serve_of_route hroute r.method

/-- Without the key, a request is refused: it is told the same whatever the world is, and the world
stays as it is. With the key, it gets the answer of its route. -/
theorem key_required (s : AdapterSettings) (key : String) (r : HttpRequest) (draws : Draws) :
    (authorization? r ≠ some ("Bearer " ++ key) →
      respond s key r draws = .done (refusal r.method) ∧
      ∀ w : World, w.run (respond s key r draws) = (refusal r.method, w) ∧
        w.jobs (respond s key r draws) = []) ∧
    (authorization? r = some ("Bearer " ++ key) → (∀ c ∈ key.toList, isPlain c = true) →
      ∀ route, Route.ofPath? (Target.ofText r.uri).path = some route →
        respond s key r draws =
          if r.method = "HEAD" then (·.withoutContent) <$> handle s r draws route "GET"
          else handle s r draws route r.method) := by
  constructor
  · intro h
    have hrespond : respond s key r draws = .done (refusal r.method) :=
      respond_of_not_showsKey fun hkey => h (showsKey_iff.mp hkey).1
    rw [hrespond]
    exact ⟨rfl, fun w => ⟨rfl, rfl⟩⟩
  · intro h hplain route hroute
    exact respond_of_showsKey (showsKey_iff.mpr ⟨h, hplain⟩) hroute

/-- A delete of a node that shows a part of the key is refused, and one that shows the key reaches
the route of the node. -/
theorem key_required_delete :
    let unkeyed : HttpRequest :=
      ⟨"DELETE", "/nodes/dc-1/srv-1",
        [("host", "key"), ("authorization", "Bearer ke"), ("authorization", "Bearer key")], ""⟩
    let keyed : HttpRequest := { unkeyed with headers := [("authorization", "Bearer key")] }
    let answer := ⟨⟨401⟩, .json (.record [("error", .text "unauthorized")])⟩
    (∀ w : World, w.run (respond {} "key" unkeyed fun _ => 0) = (answer, w)) ∧
      respond {} "key" keyed (fun _ => 0) =
        handle {} keyed (fun _ => 0) (.node "dc-1" "srv-1") "DELETE" := by
  intro unkeyed keyed answer
  have hunkeyed : authorization? unkeyed ≠ some ("Bearer " ++ "key") := by decide +kernel
  have hkeyed : authorization? keyed = some ("Bearer " ++ "key") := by decide +kernel
  have hroute : Route.ofPath? (Target.ofText keyed.uri).path = some (.node "dc-1" "srv-1") := by
    decide +kernel
  have hplain : "key".toList.all isPlain = true := by decide
  have hrefused := (key_required {} "key" unkeyed fun _ => 0).1 hunkeyed
  have hserved := (key_required {} "key" keyed fun _ => 0).2 hkeyed (List.all_eq_true.mp hplain) _
    hroute
  exact ⟨fun w => (hrefused.2 w).1, hserved⟩

/-- Not every request that is refused is told so in the content of its answer. -/
theorem exists_refusal_without_content :
    ¬∀ (w : World) (s : AdapterSettings) (key : String) (r : HttpRequest) (draws : Draws)
      (route : Route), Route.ofPath? (Target.ofText r.uri).path = some route →
      authorization? r ≠ some ("Bearer " ++ key) →
      (w.run (respond s key r draws)).1 =
        ⟨⟨401⟩, .json (.record [("error", .text "unauthorized")])⟩ := by
  intro hall
  have hroute : Route.ofPath? (Target.ofText "/hardware").path = some .hardware := by
    decide +kernel
  have hanswer := hall {} {} "k" ⟨"HEAD", "/hardware", [], ""⟩ (fun _ => 0) _ hroute
    (by decide +kernel)
  cases hanswer

end ComputePlane.Gateway
