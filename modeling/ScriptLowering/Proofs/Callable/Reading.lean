import ScriptLowering.Callable.Decoder
import ScriptLowering.Proofs.Outcome

/-!
# What can be read

A callable in tuple form can be read if its header can and each item of its body can. Otherwise
reading stops at a first item, and the failure that is reported is the fault of that item, unless
a recursive call stands in front of it.
-/

namespace ScriptLowering

namespace Instr

/-- A body can be read up to its first item that cannot, which has the given fault. -/
def StopsAt (items : List (Except Failure Instr)) (run : List Instr) (fault : Failure) : Prop :=
  ∃ rest, items = run.map .ok ++ .error fault :: rest

theorem collect_eq_ok {recursive : Bool} {items : List (Except Failure Instr)}
    {body : List Instr} : collect recursive items = .ok body ↔ items = body.map .ok := by
  induction items generalizing recursive body with
  | nil => cases body <;> simp [collect]
  | cons item items induction =>
      cases item with
      | error failure => cases body <;> simp [collect]
      | ok instr =>
          rw [collect, Except.bind_eq_ok]
          constructor
          · rintro ⟨rest, collected, ⟨⟩⟩
            rw [List.map_cons, induction.mp collected]
          · intro items_eq
            obtain ⟨instr, rest, rfl, ⟨⟩, tail⟩ := List.map_eq_cons_iff.mp items_eq.symm
            exact ⟨rest, induction.mpr tail.symm, rfl⟩

/-- A body that cannot be read is reported with the fault of the item at which reading stops,
unless a recursive call stands in front of that item. -/
theorem stopsAt_of_collect {recursive : Bool} {items : List (Except Failure Instr)}
    {failure : Failure} (failed : collect recursive items = .error failure) :
    ∃ run fault, StopsAt items run fault ∧
      failure = if recursive || run.contains .recurse then .recursion else fault := by
  induction items generalizing recursive with
  | nil => cases failed
  | cons item items induction =>
      cases item with
      | error fault =>
          exact ⟨[], fault, ⟨items, rfl⟩, by simpa [collect] using failed.symm⟩
      | ok instr =>
          rw [collect] at failed
          cases collected : collect (recursive || instr == .recurse) items with
          | ok rest =>
              rw [collected] at failed
              cases failed
          | error later =>
              rw [collected] at failed
              obtain rfl : later = failure := Except.error.inj failed
              obtain ⟨run, fault, ⟨rest, rfl⟩, failure_eq⟩ := induction collected
              refine ⟨instr :: run, fault, ⟨rest, rfl⟩, ?_⟩
              rw [failure_eq, List.contains_cons, Bool.or_assoc, BEq.comm]

end Instr

namespace Opening

variable {opening : Opening} {kind : CallableKind} {name : String} {declared index : Nat}
  {params : List Variable} {items : List Json}

theorem decode_eq_ok {callable : Callable} :
    opening.decode = .ok callable ↔
      opening.header = callable.toHeader ∧ opening.instrs = callable.body.map .ok := by
  rw [decode, Except.bind_eq_ok]
  constructor
  · rintro ⟨body, collected, ⟨⟩⟩
    exact ⟨rfl, Instr.collect_eq_ok.mp collected⟩
  · rintro ⟨header_eq, instrs_eq⟩
    exact ⟨callable.body, Instr.collect_eq_ok.mpr instrs_eq, by rw [header_eq]; rfl⟩

theorem afterHeader_eq_ok :
    afterHeader kind name declared items = .ok opening ↔
      ofItems kind name declared [] 1 items = .ok opening := by
  rw [afterHeader]
  cases ofItems kind name declared [] 1 items <;> simp

theorem afterHeader_of_ofItems_error {failure : Failure}
    (failed : ofItems kind name declared [] 1 items = .error failure) :
    afterHeader kind name declared items =
      .error (if declared ≤ capacity then failure else .overflow) := by
  rw [afterHeader, failed]

/-- Reading parameters does not change the name. -/
theorem name_of_ofItems (opened : ofItems kind name declared params index items = .ok opening) :
    opening.header.name = name := by
  induction items generalizing params index with
  | nil => cases opened
  | cons item rest induction =>
      obtain ⟨tuple, -, opened⟩ := Except.bind_eq_ok.mp opened
      obtain ⟨tag, -, opened⟩ := Except.bind_eq_ok.mp opened
      split at opened
      · split at opened
        · obtain rfl := Except.ok.inj opened
          rfl
        · cases opened
      · obtain ⟨param, -, opened⟩ := Except.bind_eq_ok.mp opened
        exact induction opened
      · cases opened

end Opening

namespace Callable

variable {value : Json} {opening : Opening}

/-- A callable with a header that can be read and a body that cannot is reported with the fault of
the item at which reading stops, unless a recursive call stands in front of that item. -/
theorem stopsAt_of_decode {failure : Failure} (opened : openTuples value = .ok opening)
    (failed : decode value = .error failure) :
    ∃ run fault, Instr.StopsAt opening.instrs run fault ∧
      failure = if run.contains .recurse then .recursion else fault := by
  rw [decode, opened] at failed
  change (Instr.collect false opening.instrs >>= _) = _ at failed
  cases collected : Instr.collect false opening.instrs with
  | ok body =>
      rw [collected] at failed
      cases failed
  | error fault =>
      rw [collected] at failed
      obtain rfl : fault = failure := Except.error.inj failed
      exact Instr.stopsAt_of_collect collected

/-- A header that can be read declares its name. -/
theorem declaredName_of_openTuples (opened : openTuples value = .ok opening) :
    declaredName value = .ok opening.header.name := by
  obtain ⟨⟨header, items⟩, parts, opened⟩ := Except.bind_eq_ok.mp opened
  obtain ⟨tag, -, opened⟩ := Except.bind_eq_ok.mp opened
  split at opened
  · obtain ⟨name, named, opened⟩ := Except.bind_eq_ok.mp opened
    obtain ⟨declared, -, opened⟩ := Except.bind_eq_ok.mp opened
    rw [declaredName, parts, Opening.name_of_ofItems (Opening.afterHeader_eq_ok.mp opened)]
    exact named
  · cases opened

end Callable

end ScriptLowering
