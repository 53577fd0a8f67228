import Mathlib.Tactic.SplitIfs

/-!
# Flows of control

What can be seen of a statement while it runs, when its tests may turn out in any way. A `Flow` runs
on a list of outcomes, one for each test to come. It shows some steps in order and tells how the
statement ends: normally or by a jump. A run that finds no more outcomes, or goes through a loop more
often than it is allowed to, is cut off there.

* `Flow.andThen`, `Flow.test`, `Flow.whileLoop`, `Flow.repeatLoop`: how statements are put together.
* `Flow.map`: the same flow with its steps told in other words; `map_andThen`, `map_whileLoop` and so
  on say that putting together may come before or after.
* `Flow.Ends`: how a flow can end.
-/

namespace SwiftScribe

/-- **How a statement ends.** -/
inductive Ending where
  | normal
  | breaks (label : Option String)
  | continues (label : Option String)
  | returns
  | throws
  /-- The run is not followed any further. -/
  | cut
deriving DecidableEq

namespace Ending

/-- Whether a loop with some labels goes on after an iteration that ends so. -/
def stays (labels : List String) : Ending → Bool
  | .normal => true
  | .continues none => true
  | .continues (some label) => labels.contains label
  | _ => false

/-- How a loop ends that an iteration leaves: a plain `break` has done its work. -/
def outside : Ending → Ending
  | .breaks none => .normal
  | ending => ending

/-- How a labelled statement ends: a `break` to the label has done its work. -/
def behind (label : String) : Ending → Ending
  | .breaks (some target) => if target = label then .normal else .breaks (some target)
  | ending => ending

end Ending

/-- **A run**: what it shows, how it ends, and the outcomes that are left. -/
@[ext]
structure Run (ε : Type) where
  shown : List ε
  ending : Ending
  rest : List Bool

/-- **A flow of control** on the outcomes of the tests to come. -/
def Flow (ε : Type) : Type := List Bool → Run ε

namespace Flow

variable {ε δ : Type}

/-- Nothing is shown. -/
def stop (ending : Ending) : Flow ε := fun outcomes => ⟨[], ending, outcomes⟩

/-- Steps, and then a flow. -/
def tell (steps : List ε) (flow : Flow ε) : Flow ε := fun outcomes =>
  ⟨steps ++ (flow outcomes).shown, (flow outcomes).ending, (flow outcomes).rest⟩

/-- One flow, and another one that depends on how the first ends. -/
def andThen (first : Flow ε) (next : Ending → Flow ε) : Flow ε := fun outcomes =>
  if (first outcomes).ending = .cut then first outcomes
  else tell (first outcomes).shown (next (first outcomes).ending) (first outcomes).rest

/-- The next outcome decides. -/
def test (steps : Bool → List ε) (next : Bool → Flow ε) : Flow ε
  | [] => ⟨[], .cut, []⟩
  | outcome :: rest => tell (steps outcome) (next outcome) rest

/-- Rounds that may lead to a further one, up to a number of them. -/
def loop (round : Flow ε → Flow ε) : Nat → Flow ε
  | 0 => stop .cut
  | rounds + 1 => round (loop round rounds)

/-- **One statement before the next**, which is reached if the first ends normally. -/
def before (first next : Flow ε) : Flow ε :=
  first.andThen fun ending => if ending = .normal then next else stop ending

/-- The next outcome decides, or there is nothing to decide and it goes on. -/
def check (steps? : Option (Bool → List ε)) (next : Bool → Flow ε) : Flow ε :=
  match steps? with
  | some steps => test steps next
  | none => next true

/-- **A loop that checks first**, with steps after an iteration that goes on and after one that does
not. -/
def stepLoop (rounds : Nat) (labels : List String) (steps? : Option (Bool → List ε)) (body : Flow ε)
    (onward left : List ε) : Flow ε :=
  loop (fun again => check steps? fun goesOn =>
    if goesOn then
      body.andThen fun ending =>
        if ending.stays labels then tell onward again else tell left (stop ending.outside)
    else stop .normal) rounds

/-- A loop that checks first and does nothing else between iterations. -/
def whileLoop (rounds : Nat) (labels : List String) (steps? : Option (Bool → List ε))
    (body : Flow ε) : Flow ε := stepLoop rounds labels steps? body [] []

/-- **A loop that checks last.** -/
def repeatLoop (rounds : Nat) (labels : List String) (body : Flow ε) (steps : Bool → List ε) :
    Flow ε :=
  loop (fun again => body.andThen fun ending =>
    if ending.stays labels then test steps fun goesOn => if goesOn then again else stop .normal
    else stop ending.outside) rounds

/-- A statement behind a label. -/
def labeled (label : String) (body : Flow ε) : Flow ε :=
  body.andThen fun ending => stop (ending.behind label)

/-! ## Laws -/

theorem stop_andThen {ending : Ending} (h : ending ≠ .cut) (next : Ending → Flow ε) :
    (stop ending).andThen next = next ending := by
  funext outcomes
  simp [andThen, stop, h, tell]

theorem tell_andThen (steps : List ε) (first : Flow ε) (next : Ending → Flow ε) :
    (tell steps first).andThen next = tell steps (first.andThen next) := by
  funext outcomes
  unfold andThen
  by_cases h : (first outcomes).ending = .cut
  · simp [tell, h]
  · simp [tell, h]

theorem andThen_assoc (first : Flow ε) (next further : Ending → Flow ε) :
    (first.andThen next).andThen further =
      first.andThen fun ending => (next ending).andThen further := by
  funext outcomes
  by_cases h : (first outcomes).ending = .cut
  · simp [andThen, h]
  · by_cases h' : (next (first outcomes).ending (first outcomes).rest).ending = .cut
    · simp [andThen, h, h', tell]
    · simp [andThen, h, h', tell]

/-- After a flow that goes on in no way nothing is missed. -/
theorem andThen_stop (flow : Flow ε) : flow.andThen stop = flow := by
  funext outcomes
  unfold andThen
  split
  · rfl
  · simp [tell, stop]

theorem before_stop (flow : Flow ε) : flow.before (stop .normal) = flow := by
  have hnext : (fun ending : Ending => if ending = .normal then (stop .normal : Flow ε) else stop ending)
      = stop := by
    funext ending
    split
    · rename_i h
      rw [h]
    · rfl
  unfold before
  rw [hnext, andThen_stop]

theorem stop_before (next : Flow ε) : (stop .normal).before next = next := by
  unfold before
  rw [stop_andThen (by decide), if_pos rfl]

theorem tell_before (steps : List ε) (first next : Flow ε) :
    (tell steps first).before next = tell steps (first.before next) :=
  tell_andThen steps first _

theorem before_assoc (first next further : Flow ε) :
    (first.before next).before further = first.before (next.before further) := by
  unfold before
  rw [andThen_assoc]
  congr 1
  funext ending
  split
  · rfl
  · rename_i h
    by_cases hc : ending = .cut
    · subst hc
      funext outcomes
      simp [andThen, stop]
    · rw [stop_andThen hc, if_neg h]

/-! ## Other words -/

/-- **The same flow in other words**, where a step may be told in any number of them. -/
def map (f : ε → List δ) (flow : Flow ε) : Flow δ := fun outcomes =>
  ⟨(flow outcomes).shown.flatMap f, (flow outcomes).ending, (flow outcomes).rest⟩

section Map

variable (f : ε → List δ)

theorem map_tell (steps : List ε) (flow : Flow ε) :
    (tell steps flow).map f = tell (steps.flatMap f) (flow.map f) := by
  funext outcomes
  simp [map, tell]

theorem map_andThen (first : Flow ε) (next : Ending → Flow ε) :
    (first.andThen next).map f = (first.map f).andThen fun ending => (next ending).map f := by
  funext outcomes
  by_cases h : (first outcomes).ending = .cut
  · simp [map, andThen, h]
  · simp [map, andThen, h, tell]

theorem map_test (steps : Bool → List ε) (next : Bool → Flow ε) :
    (test steps next).map f =
      test (fun outcome => (steps outcome).flatMap f) fun outcome => (next outcome).map f := by
  funext outcomes
  cases outcomes with
  | nil => rfl
  | cons outcome rest => exact congrFun (map_tell f (steps outcome) (next outcome)) rest

theorem map_before (first next : Flow ε) :
    (first.before next).map f = (first.map f).before (next.map f) := by
  unfold before
  rw [map_andThen]
  congr 1
  funext ending
  split <;> rfl

/-- Loops go along if their rounds do. -/
theorem map_loop {round : Flow ε → Flow ε} {other : Flow δ → Flow δ}
    (h : ∀ again, (round again).map f = other (again.map f)) (rounds : Nat) :
    (loop round rounds).map f = loop other rounds := by
  induction rounds with
  | zero => rfl
  | succ rounds ih =>
    show (round (loop round rounds)).map f = other (loop other rounds)
    rw [h, ih]

theorem map_check (steps? : Option (Bool → List ε)) (next : Bool → Flow ε) :
    (check steps? next).map f =
      check (steps?.map fun steps outcome => (steps outcome).flatMap f)
        fun outcome => (next outcome).map f := by
  cases steps? with
  | none => rfl
  | some steps => exact map_test f steps next

theorem map_stepLoop (rounds : Nat) (labels : List String) (steps? : Option (Bool → List ε))
    (body : Flow ε) (onward left : List ε) :
    (stepLoop rounds labels steps? body onward left).map f =
      stepLoop rounds labels (steps?.map fun steps outcome => (steps outcome).flatMap f) (body.map f)
        (onward.flatMap f) (left.flatMap f) := by
  refine map_loop f (fun again => ?_) rounds
  rw [map_check]
  congr 1
  funext goesOn
  split
  · rw [map_andThen]
    congr 1
    funext ending
    split
    · exact map_tell f onward again
    · exact map_tell f left _
  · rfl

theorem map_whileLoop (rounds : Nat) (labels : List String) (steps? : Option (Bool → List ε))
    (body : Flow ε) :
    (whileLoop rounds labels steps? body).map f =
      whileLoop rounds labels (steps?.map fun steps outcome => (steps outcome).flatMap f)
        (body.map f) := map_stepLoop f rounds labels steps? body [] []

theorem map_repeatLoop (rounds : Nat) (labels : List String) (body : Flow ε)
    (steps : Bool → List ε) :
    (repeatLoop rounds labels body steps).map f =
      repeatLoop rounds labels (body.map f) fun outcome => (steps outcome).flatMap f := by
  refine map_loop f (fun again => ?_) rounds
  rw [map_andThen]
  congr 1
  funext ending
  split
  · rw [map_test]
    congr 1
    funext goesOn
    split <;> rfl
  · rfl

theorem map_labeled (label : String) (body : Flow ε) :
    (labeled label body).map f = labeled label (body.map f) :=
  map_andThen f body _

end Map

/-! ## How flows end -/

/-- **However the tests turn out, a flow ends in a way that passes a check.** -/
def Ends (P : Ending → Prop) (flow : Flow ε) : Prop := ∀ outcomes, P (flow outcomes).ending

namespace Ends

variable {P Q : Ending → Prop} {flow first : Flow ε} {next : Ending → Flow ε}

theorem stop {ending : Ending} (h : P ending) : Ends P (Flow.stop ending : Flow ε) := fun _ => h

theorem tell (steps : List ε) (h : Ends P flow) : Ends P (Flow.tell steps flow) :=
  fun outcomes => h outcomes

theorem test (steps : Bool → List ε) {next : Bool → Flow ε} (hc : P .cut)
    (h : ∀ outcome, Ends P (next outcome)) : Ends P (Flow.test steps next)
  | [] => hc
  | outcome :: rest => h outcome rest

theorem andThen (hc : P .cut) (hf : Ends Q first) (hn : ∀ ending, Q ending → Ends P (next ending)) :
    Ends P (first.andThen next) := by
  intro outcomes
  unfold Flow.andThen
  split
  · rename_i h
    rw [h]
    exact hc
  · exact hn _ (hf outcomes) _

theorem before {next : Flow ε} (hc : P .cut) (hf : Ends P first) (hn : Ends P next) :
    Ends P (first.before next) := by
  refine andThen hc hf fun ending he => ?_
  split
  · exact hn
  · exact stop he

theorem loop {round : Flow ε → Flow ε} (hc : P .cut) (h : ∀ again, Ends P again → Ends P (round again))
    (rounds : Nat) : Ends P (Flow.loop round rounds) := by
  induction rounds with
  | zero => exact stop hc
  | succ rounds ih => exact h _ ih

theorem check {steps? : Option (Bool → List ε)} {next : Bool → Flow ε} (hc : P .cut)
    (h : ∀ outcome, Ends P (next outcome)) : Ends P (Flow.check steps? next) := by
  cases steps? with
  | none => exact h true
  | some steps => exact test steps hc h

section Loops

variable {rounds : Nat} {labels : List String} {body : Flow ε}

/-- **A loop ends normally, or as an iteration does that leaves it.** -/
theorem stepLoop (hc : P .cut) (hn : P .normal) (hb : Ends Q body)
    (h : ∀ ending, Q ending → ending.stays labels = false → P ending.outside)
    (steps? : Option (Bool → List ε)) (onward left : List ε) :
    Ends P (Flow.stepLoop rounds labels steps? body onward left) := by
  refine loop hc (fun again hagain => check hc fun goesOn => ?_) rounds
  split
  · refine andThen hc hb fun ending he => ?_
    split
    · exact tell _ hagain
    · rename_i hstays
      exact tell _ (stop (h ending he (by simpa using hstays)))
  · exact stop hn

theorem repeatLoop (hc : P .cut) (hn : P .normal) (hb : Ends Q body)
    (h : ∀ ending, Q ending → ending.stays labels = false → P ending.outside)
    (steps : Bool → List ε) : Ends P (Flow.repeatLoop rounds labels body steps) := by
  refine loop hc (fun again hagain => andThen hc hb fun ending he => ?_) rounds
  split
  · refine test steps hc fun goesOn => ?_
    split
    · exact hagain
    · exact stop hn
  · rename_i hstays
    exact stop (h ending he (by simpa using hstays))

end Loops

end Ends

/-- What comes after a flow matters only for the ways in which it can end and go on. -/
theorem andThen_congr {P : Ending → Prop} {first : Flow ε} (hf : first.Ends P)
    {next other : Ending → Flow ε} (h : ∀ ending, ending ≠ .cut → P ending → next ending = other ending) :
    first.andThen next = first.andThen other := by
  funext outcomes
  unfold andThen
  split
  · rfl
  · rename_i hcut
    rw [h _ hcut (hf outcomes)]

/-! ## Steps at the end of an iteration -/

section Steps

variable {rounds : Nat} {labels : List String} {steps? : Option (Bool → List ε)} {body : Flow ε}

/-- Loops are the same if their rounds do the same after the body. -/
theorem loop_congr {next other : Flow ε → Ending → Flow ε} {first second : Flow ε}
    (h : ∀ again, first.andThen (next again) = second.andThen (other again)) :
    loop (fun again => check steps? fun goesOn =>
        if goesOn then first.andThen (next again) else stop .normal) rounds =
      loop (fun again => check steps? fun goesOn =>
        if goesOn then second.andThen (other again) else stop .normal) rounds := by
  simp only [h]

/-- Only the labels matter to which an iteration can jump. -/
theorem stepLoop_labels {other : List String}
    (h : body.Ends fun ending => ending.stays labels = ending.stays other) (onward left : List ε) :
    stepLoop rounds labels steps? body onward left =
      stepLoop rounds other steps? body onward left :=
  loop_congr fun again => andThen_congr h fun ending _ he => by rw [he]

/-- **Steps that follow the body on every way out** follow the iterations that leave the loop, too. -/
theorem whileLoop_always (steps : List ε) :
    whileLoop rounds labels steps? (body.andThen fun ending => tell steps (stop ending)) =
      stepLoop rounds labels steps? body steps steps := by
  refine loop_congr fun again => ?_
  rw [andThen_assoc]
  refine andThen_congr (P := fun _ => True) (fun _ => trivial) fun ending hcut _ => ?_
  rw [tell_andThen, stop_andThen hcut]
  split <;> rfl

/-- **Steps at the end of the body** follow the iterations that get there. -/
theorem whileLoop_last (h : body.Ends fun ending => ending.stays labels → ending = .normal)
    (steps : List ε) :
    whileLoop rounds labels steps? (body.before (tell steps (stop .normal))) =
      stepLoop rounds labels steps? body steps [] := by
  refine loop_congr fun again => ?_
  rw [before, andThen_assoc]
  refine andThen_congr h fun ending hcut hnormal => ?_
  split
  · rename_i he
    subst he
    rw [tell_andThen, stop_andThen (by decide)]
    rfl
  · rename_i he
    rw [stop_andThen hcut, if_neg (mt hnormal he), if_neg (mt hnormal he)]

end Steps

end Flow

end SwiftScribe
