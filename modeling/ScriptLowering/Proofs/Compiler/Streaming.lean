import ScriptLowering.Proofs.Callable.Reading
import ScriptLowering.Proofs.Frame.ClosedForm

/-!
# Lowering while reading

A callable in tuple form may be read as a whole and then lowered, or lowered item by item while it
is read. Both ways agree on every callable that can be read. On any other, the second way reports
what comes first: the failure to lower an instruction, or the item that cannot be read.
-/

namespace ScriptLowering

namespace Frame

/-- Where reading stops, lowering does, if it has come that far. -/
theorem lowerAll_of_stopsAt {frame : Frame Literal Statement}
    {items : List (Except Failure Instr)} {run : List Instr} {fault : Failure}
    (stops : Instr.StopsAt items run fault) :
    frame.lowerAll items = frame.lowerAll (run.map .ok) >>= fun _ => .error fault := by
  obtain ⟨rest, rfl⟩ := stops
  rw [lowerAll_append]
  rfl

end Frame

namespace Header

variable {header : Header} {naming : Naming}

theorem lower_of_stopsAt {items : List (Except Failure Instr)} {run : List Instr}
    {fault : Failure} (stops : Instr.StopsAt items run fault) :
    header.lower naming items =
      { header with body := run : Callable }.lower naming >>= fun _ => .error fault := by
  rw [Callable.lower, lower, lower]
  simp only [Frame.lowerAll_of_stopsAt stops]
  cases ((Frame.start naming).declareAll header.params).2.lowerAll (run.map .ok) <;> rfl

end Header

namespace Compiler

variable {compiler : Compiler} {value : Json} {opening : Opening}

theorem lowerTuples_of_openTuples (opened : Callable.openTuples value = .ok opening) :
    compiler.lowerTuples value =
      match compiler.cache.get? opening.header.name with
      | some code => (.ok code, compiler)
      | none =>
          compiler.remember opening.header.name
            (opening.header.lower compiler.naming opening.instrs) := by
  have declared := Callable.declaredName_of_openTuples opened
  cases cached : compiler.cache.get? opening.header.name with
  | none => simp only [lowerTuples, declared, cached, opened]
  | some code => simp only [lowerTuples, declared, cached]

theorem lowerTuples_of_decode {callable : Callable}
    (decoded : Callable.decode value = .ok callable) :
    compiler.lowerTuples value = compiler.lower callable := by
  obtain ⟨opening, opened, decoded⟩ := Except.bind_eq_ok.mp decoded
  obtain ⟨header_eq, instrs_eq⟩ := Opening.decode_eq_ok.mp decoded
  rw [lowerTuples_of_openTuples opened, header_eq, instrs_eq]
  rfl

/-- Where reading stops, the failure to lower what stands in front is reported, or else the fault
of the item. Nothing is remembered. -/
theorem lowerTuples_of_stopsAt (opened : Callable.openTuples value = .ok opening)
    (uncached : compiler.cache.get? opening.header.name = none) {run : List Instr}
    {fault : Failure} (stops : Instr.StopsAt opening.instrs run fault) :
    compiler.lowerTuples value =
      match (compiler.lower { opening.header with body := run }).1 with
      | .ok _ => (.error fault, compiler)
      | .error failure => (.error failure, compiler) := by
  rw [lowerTuples_of_openTuples opened, uncached, Header.lower_of_stopsAt stops,
    lower_of_uncached uncached, remember_fst]
  cases { opening.header with body := run : Callable }.lower compiler.naming <;> rfl

theorem lowerTuples_of_openTuples_error {failure : Failure}
    (failed : Callable.openTuples value = .error failure)
    (uncached : ∀ name, Callable.declaredName value = .ok name →
      compiler.cache.get? name = none) (code : String) :
    (compiler.lowerTuples value).1 ≠ .ok code := by
  cases declared : Callable.declaredName value with
  | error fault => simp [lowerTuples, declared]
  | ok name => simp [lowerTuples, declared, uncached name declared, failed]

/-- Lowering while reading agrees with reading and then lowering, whatever the compiler remembers.
If the callable can be read, both have the same outcome and remember the same. If its header can
be read, its name is not known and its body cannot be read, then reading stops at an item: the
failure to lower what stands in front of that item is reported, or else the fault of the item,
which is then the failure to read the callable. So if the name is not known, lowering while
reading succeeds exactly if reading and then lowering does. -/
theorem lowerTuples_agrees_with_lower (compiler : Compiler) (value : Json) :
    (∀ callable, Callable.decode value = .ok callable →
      compiler.lowerTuples value = compiler.lower callable) ∧
    (∀ opening failure, Callable.openTuples value = .ok opening →
      compiler.cache.get? opening.header.name = none →
      Callable.decode value = .error failure →
      ∃ run fault, Instr.StopsAt opening.instrs run fault ∧
        match (compiler.lower { opening.header with body := run }).1 with
        | .error first => compiler.lowerTuples value = (.error first, compiler)
        | .ok _ => compiler.lowerTuples value = (.error fault, compiler) ∧ fault = failure) ∧
    ((∀ name, Callable.declaredName value = .ok name → compiler.cache.get? name = none) →
      ∀ code, (compiler.lowerTuples value).1 = .ok code ↔
        ∃ callable, Callable.decode value = .ok callable ∧
          (compiler.lower callable).1 = .ok code) := by
  refine ⟨fun callable => lowerTuples_of_decode, ?_, ?_⟩
  · intro opening failure opened uncached failed
    obtain ⟨run, fault, stops, failure_eq⟩ := Callable.stopsAt_of_decode opened failed
    refine ⟨run, fault, stops, ?_⟩
    have reported := lowerTuples_of_stopsAt opened uncached stops
    split <;> rename_i accepted
    · rw [reported, accepted]
    · obtain ⟨final, lowered, -⟩ := exists_finalFrame_of_lower uncached accepted
      have silent : run.contains .recurse = false := by
        simpa using Frame.recurse_notMem_of_lowerAll lowered
      rw [reported, accepted, failure_eq, silent]
      exact ⟨rfl, rfl⟩
  · intro uncached code
    cases decoded : Callable.decode value with
    | ok callable => simp [lowerTuples_of_decode decoded]
    | error failure =>
        simp only [reduceCtorEq, false_and, exists_false, iff_false]
        cases opened : Callable.openTuples value with
        | error fault => exact lowerTuples_of_openTuples_error opened uncached code
        | ok opening =>
            obtain ⟨run, fault, stops, -⟩ := Callable.stopsAt_of_decode opened decoded
            have known := uncached _ (Callable.declaredName_of_openTuples opened)
            rw [lowerTuples_of_stopsAt opened known stops]
            split <;> simp

/-- A callable with an unknown variable in front of an item that cannot be read. -/
def broken : Json :=
  .array [.array [.string "function", .string "f", .ofNat 0], .array [.string "begin"],
    .array [.string "return", .ofNat 7], .null]

/-- Reading complains about the last item, and lowering while reading about the variable. -/
theorem broken_agrees_with_lower :
    Callable.decode broken = .error (.item 3 .notATuple) ∧
      ({} : Compiler).lowerTuples broken = (.error (.unbound (.slot 7)), {}) := by
  have failed : Callable.decode broken = .error (.item 3 .notATuple) := by decide +kernel
  have opened : Callable.openTuples broken =
      .ok ⟨⟨.function, "f", []⟩, 2, [.array [.string "return", .ofNat 7], .null]⟩ := by rfl
  refine ⟨failed, ?_⟩
  obtain ⟨run, fault, ⟨rest, items_eq⟩, reported⟩ :=
    (lowerTuples_agrees_with_lower {} broken).2.1 _ _ opened rfl failed
  have items : [.ok (.ret (some (.slot 7))), .error (.item 3 .notATuple)] =
    run.map .ok ++ .error fault :: rest := items_eq
  obtain rfl : run = [.ret (some (.slot 7))] := by
    rcases run with _ | ⟨first, _ | ⟨second, run⟩⟩ <;> simp_all
  exact reported

end Compiler

end ScriptLowering
