import QueryPlan.Plan.Build
import QueryPlan.Proofs.Coerce.Typing
import QueryPlan.Proofs.Compile.Collected

/-!
# Binding the parameters of a compiled statement

A parameter takes the value that the plan gives it, else the argument of its name, and coerces it to
its type. Every parameter of a compiled statement has a value or a name, in each style of
placeholders and also where parameters are noted twice; so binding never comes to a parameter that
can take nothing. `bind_compiled` says when it succeeds and what it gives, and else with which error
it fails.
-/

namespace QueryPlan

variable {v : Value} {e : Error}

/-! ## 1. Single parameters -/

/-- What a parameter is given: the value of the plan, else the argument of its name. -/
def Parameter.supplied? (p : Parameter) (args : List (String × Value)) : Option Value :=
  p.value <|> p.name.bind (Fields.get? args)

/-- A value that a parameter is given, coerced to its type if it has one. -/
def Parameter.coerced (p : Parameter) (v : Value) : Except Error Value :=
  match p.type with
  | some type => v.coerce type
  | none => .ok v

/-- A parameter that takes a value of the plan or an argument. -/
def Parameter.IsBindable (p : Parameter) : Prop :=
  p.value.isSome = true ∨ p.name.isSome = true

theorem Value.eq_null_of_isNull (h : v.isNull = true) : v = .null := by
  cases v with
  | null => rfl
  | _ => cases h

theorem Value.exists_mismatch_of_toItems {element : DataType} (h : v.toItems element = .error e) :
    ∃ wanted found, e = mismatch wanted found := by
  unfold Value.toItems at h
  split at h
  · cases h
  · cases h
  · unfold Value.itemsOfText at h
    dsimp only at h
    split at h
    · split at h
      · cases h
      · cases h
        exact ⟨_, _, rfl⟩
      · cases h
        exact ⟨_, _, rfl⟩
    · split at h
      · cases h
      · cases h
        exact ⟨_, _, rfl⟩
  · cases h
    exact ⟨_, _, rfl⟩

/-- A value that cannot be coerced does not have the form that is expected, or an item of it cannot
    be coerced. -/
theorem Value.coerce_eq_error {type : DataType} (h : v.coerce type = .error e) :
    (∃ wanted found, e = mismatch wanted found) ∨
      ∃ element item, type = .array element ∧ Value.coerce element item = .error e := by
  rw [coerce.eq_def] at h
  split at h
  · cases h
  · next element _ =>
    rcases Except.bind_eq_error_iff.1 h with hitems | ⟨items, -, h⟩
    · exact .inl (exists_mismatch_of_toItems hitems)
    · rcases Except.bind_eq_error_iff.1 h with hvalues | ⟨values, -, h⟩
      · obtain ⟨_, item, _, _, _, hitem⟩ := exists_of_mapM_eq_error hvalues
        exact .inr ⟨element, item, rfl, hitem⟩
      · cases h
  · split at h
    · cases h
    · cases h
      exact .inl ⟨_, _, rfl⟩

/-- All that coercion complains of is a value that does not have the form that is expected. -/
theorem Value.exists_mismatch_of_coerce {type : DataType} (h : v.coerce type = .error e) :
    ∃ wanted found, e = mismatch wanted found := by
  induction type generalizing v with
  | array element ih =>
    rcases coerce_eq_error h with hmismatch | ⟨_, item, ht, hitem⟩
    · exact hmismatch
    · cases ht
      exact ih hitem
  | _ =>
    rcases coerce_eq_error h with hmismatch | ⟨_, item, ht, hitem⟩
    · exact hmismatch
    · cases ht

namespace Parameter

variable {p : Parameter} {args : List (String × Value)}

/-- The error of an argument that is missing. -/
def argumentMissing (name : String) : Error :=
  .ofCause (.notFound name "parameter")

theorem given_of_supplied (h : p.supplied? args = some v) : p.given args = .ok v := by
  obtain ⟨name, value, type⟩ := p
  cases value with
  | some w =>
    cases h
    rfl
  | none =>
    cases name with
    | none => cases h
    | some name =>
      have hargs : Fields.get? args name = some v := h
      simp only [given, hargs]

theorem bind_of_supplied (h : p.supplied? args = some v) : p.bind args = p.coerced v := by
  unfold Parameter.bind Parameter.coerced
  rw [given_of_supplied h]
  cases p.type with
  | none => rfl
  | some type =>
    show (if v.isNull then Except.ok v else v.coerce type) = v.coerce type
    split
    · next hv => rw [Value.eq_null_of_isNull hv, Value.coerce_null]
    · rfl

/-- A parameter that is given nothing misses the argument of its name. -/
theorem bind_of_not_supplied (hp : p.IsBindable) (h : p.supplied? args = none) :
    ∃ name, p.value = none ∧ p.name = some name ∧ Fields.get? args name = none ∧
      p.bind args = .error (argumentMissing name) := by
  obtain ⟨name, value, type⟩ := p
  cases value with
  | some w => cases h
  | none =>
    cases name with
    | none => exact absurd hp (by simp [IsBindable])
    | some name =>
      have hargs : Fields.get? args name = none := h
      refine ⟨name, rfl, rfl, hargs, ?_⟩
      simp only [Parameter.bind, given, hargs]
      rfl

end Parameter

/-! ## 2. The parameters of a compiled statement -/

namespace Collector

/-- Parameters that all take a value of the plan or an argument. -/
def IsBindable (c : Collector) : Prop :=
  ∀ p ∈ c.params, p.IsBindable

variable {c : Collector}

theorem IsBindable.push (hc : c.IsBindable) {p : Parameter} (hp : p.IsBindable) :
    (c.push p).IsBindable := by
  intro q hq
  rcases List.mem_append.1 hq with hq | hq
  · exact hc q hq
  · rw [List.mem_singleton.1 hq]
    exact hp

theorem IsBindable.placeOf (hc : c.IsBindable) (name : String) {p : Parameter}
    (hp : p.IsBindable) : (c.placeOf name p).2.IsBindable := by
  unfold Collector.placeOf
  split
  · exact hc
  · exact hc.push hp

theorem IsBindable.named (hc : c.IsBindable) (name : String) (type : Option DataType) :
    (c.named name type).2.IsBindable := by
  have hp : (⟨some name, none, type⟩ : Parameter).IsBindable := .inr rfl
  unfold Collector.named
  split
  · exact hc.push hp
  · exact hc.placeOf name hp
  · exact hc.placeOf name hp

theorem IsBindable.value (hc : c.IsBindable) (v : Value) (type : Option DataType) :
    (c.value v type).2.IsBindable := by
  unfold Collector.value
  split
  · exact hc.push (.inl rfl)
  · exact hc.push (.inl rfl)
  · exact hc.push (.inl rfl)

theorem IsBindable.repeatSince (hc : c.IsBindable) (mark : Nat) :
    (c.repeatSince mark).IsBindable := by
  unfold Collector.repeatSince
  split
  · intro p hp
    rcases List.mem_append.1 hp with hp | hp
    · exact hc p hp
    · exact hc p (List.mem_of_mem_drop hp)
  · exact hc

theorem kept_isBindable : Collector.Kept IsBindable :=
  ⟨fun name type hc => hc.named name type, fun v type hc => hc.value v type,
    fun mark hc => hc.repeatSince mark⟩

end Collector

theorem isBindable_of_compileWith {s : Statement} {d : Dialect} {o : Options} {out : Compiled}
    (h : compileWith s d o = .ok out) : ∀ p ∈ out.params, p.IsBindable := by
  have hempty : (Collector.empty d.placeholder).IsBindable := fun p hp => absurd hp List.not_mem_nil
  obtain ⟨c, hc, hparams, -⟩ := Collector.kept_isBindable.of_compileWith hempty h
  rw [← hparams]
  exact hc

/-! ## 3. Binding -/

namespace Parameter

variable {p : Parameter} {args : List (String × Value)}

theorem bind_eq_ok_iff (hp : p.IsBindable) {w : Value} :
    p.bind args = .ok w ↔ ∃ v, p.supplied? args = some v ∧ p.coerced v = .ok w := by
  cases hs : p.supplied? args with
  | none =>
    obtain ⟨name, -, -, -, hbind⟩ := bind_of_not_supplied hp hs
    rw [hbind]
    simp
  | some v =>
    rw [bind_of_supplied hs]
    simp

/-- Why a parameter cannot be bound: its argument is missing, or cannot be coerced. -/
theorem bind_eq_error (hp : p.IsBindable) (h : p.bind args = .error e) :
    (∃ name, p.value = none ∧ p.name = some name ∧ Fields.get? args name = none ∧
      e = argumentMissing name) ∨
    ∃ v type, p.supplied? args = some v ∧ v.isNull = false ∧ p.type = some type ∧
      v.coerce type = .error e := by
  cases hs : p.supplied? args with
  | none =>
    obtain ⟨name, hvalue, hname, hargs, hbind⟩ := bind_of_not_supplied hp hs
    rw [hbind] at h
    cases h
    exact .inl ⟨name, hvalue, hname, hargs, rfl⟩
  | some v =>
    rw [bind_of_supplied hs] at h
    unfold coerced at h
    split at h
    · next type htype =>
      refine .inr ⟨v, type, rfl, ?_, htype, h⟩
      cases hv : v.isNull with
      | false => rfl
      | true =>
        rw [Value.eq_null_of_isNull hv, Value.coerce_null] at h
        cases h
    · cases h

/-- A parameter can be bound if its argument is there, unless it has a value, and if what it is
    given can be coerced, unless that is null. -/
theorem exists_bind_iff (hp : p.IsBindable) :
    (∃ w, p.bind args = .ok w) ↔
      (p.value = none → ∃ name v, p.name = some name ∧ Fields.get? args name = some v) ∧
        ∀ v type, p.supplied? args = some v → v.isNull = false → p.type = some type →
          ∃ w, v.coerce type = .ok w := by
  constructor
  · rintro ⟨w, hw⟩
    obtain ⟨v, hv, hcoerced⟩ := (bind_eq_ok_iff hp).1 hw
    constructor
    · intro hnone
      rw [supplied?, hnone] at hv
      obtain ⟨name, hname, hargs⟩ := Option.bind_eq_some_iff.1 hv
      exact ⟨name, v, hname, hargs⟩
    · intro v' type hv' _ htype
      cases hv.symm.trans hv'
      rw [coerced, htype] at hcoerced
      exact ⟨w, hcoerced⟩
  · rintro ⟨hargs, hcoerce⟩
    cases hbind : p.bind args with
    | ok w => exact ⟨w, rfl⟩
    | error e =>
      rcases bind_eq_error hp hbind with ⟨name, hvalue, hname, hnone, -⟩ | ⟨v, type, hv, hn, ht, he⟩
      · obtain ⟨name', v, hname', hsome⟩ := hargs hvalue
        cases hname.symm.trans hname'
        cases hnone.symm.trans hsome
      · obtain ⟨w, hw⟩ := hcoerce v type hv hn ht
        cases he.symm.trans hw

end Parameter

/-- **Binding is complete.** The parameters of a compiled statement can be bound if and only if each
    of them has a value or finds the argument of its name, and what it is given can be coerced to
    its type unless it is null. The result then has one value for each parameter in order, which is
    what it was given, coerced. Else binding fails with the error of the first parameter that cannot
    be bound, which misses its argument or cannot coerce what it is given, and never with an internal
    error. -/
theorem bind_compiled {s : Statement} {d : Dialect} {o : Options} {out : Compiled}
    (h : compileWith s d o = .ok out) (args : List (String × Value)) :
    ((∃ values, out.bind args = .ok values) ↔
      ∀ p ∈ out.params,
        (p.value = none → ∃ name v, p.name = some name ∧ Fields.get? args name = some v) ∧
        ∀ v type, p.supplied? args = some v → v.isNull = false → p.type = some type →
          ∃ w, v.coerce type = .ok w) ∧
    (∀ values, out.bind args = .ok values →
      values.length = out.params.length ∧
      List.Forall₂ (fun p w => ∃ v, p.supplied? args = some v ∧ p.coerced v = .ok w)
        out.params values) ∧
    ∀ e, out.bind args = .error e →
      (∀ details, e.cause ≠ .internal details) ∧
      ∃ before p after, out.params = before ++ p :: after ∧
        (∀ q ∈ before, ∃ v w, q.supplied? args = some v ∧ q.coerced v = .ok w) ∧
        ((∃ name, p.value = none ∧ p.name = some name ∧ Fields.get? args name = none ∧
          e = Parameter.argumentMissing name) ∨
        ∃ v type, p.supplied? args = some v ∧ v.isNull = false ∧ p.type = some type ∧
          v.coerce type = .error e) := by
  have hbindable := isBindable_of_compileWith h
  refine ⟨?_, fun values hvalues => ?_, fun e he => ?_⟩
  · rw [Compiled.bind, bindAll, exists_mapM_iff]
    exact forall₂_congr fun p hp => Parameter.exists_bind_iff (hbindable p hp)
  · have hall := mapM_eq_ok_iff.1 hvalues
    refine ⟨hall.length_eq.symm, List.forall₂_iff_get.2 ⟨hall.length_eq, fun i hi hi' => ?_⟩⟩
    exact (Parameter.bind_eq_ok_iff (hbindable _ (List.get_mem _ _))).1 (hall.get hi hi')
  · obtain ⟨before, p, after, hparams, hbefore, hp⟩ := exists_of_mapM_eq_error he
    rw [hparams] at hbindable ⊢
    have hwhy := Parameter.bind_eq_error (hbindable p (by simp)) hp
    refine ⟨fun details => ?_, before, p, after, rfl, fun q hq => ?_, hwhy⟩
    · rcases hwhy with ⟨name, -, -, -, rfl⟩ | ⟨v, type, -, -, -, herror⟩
      · exact fun hcause => nomatch hcause
      · obtain ⟨wanted, found, rfl⟩ := Value.exists_mismatch_of_coerce herror
        exact fun hcause => nomatch hcause
    · obtain ⟨w, hw⟩ := hbefore q hq
      obtain ⟨v, hv, hcoerced⟩ :=
        (Parameter.bind_eq_ok_iff (hbindable q (List.mem_append_left _ hq))).1 hw
      exact ⟨v, w, hv, hcoerced⟩

/-- A query whose sort key is printed twice, as the dialect cannot place nulls. -/
def usersById : Statement :=
  .select { Select.empty with
    sources := [.table (.ofName "users")]
    predicates := [.binaryPredicate .eq (.column "id") (.typedParameter "id" .integer)]
    orderBy := [⟨.parameter "first", .asc, some .last⟩] }

/-- The repeated parameter takes its argument twice; without the argument nothing is bound. -/
theorem bind_compiled_here :
    ∃ out, compileWith usersById .mySql {} = .ok out ∧
      out.params.map Parameter.name = [some "id", some "first", some "first"] ∧
      (∃ values, out.bind [("id", .text "7"), ("first", .null)] = .ok values ∧
        values.length = 3) ∧
      ∃ e, out.bind [("id", .text "7")] = .error e ∧ ∀ details, e.cause ≠ .internal details := by
  have hparams : (compileWith usersById .mySql {}).map Compiled.params =
      .ok [⟨some "id", none, some .integer⟩, ⟨some "first", none, none⟩,
        ⟨some "first", none, none⟩] := rfl
  obtain ⟨out, hout, hlist⟩ := Except.map_eq_ok_iff.1 hparams
  refine ⟨out, hout, by rw [hlist]; rfl, ?_, ?_⟩
  · obtain ⟨hiff, hvalues, -⟩ := bind_compiled hout [("id", .text "7"), ("first", .null)]
    rw [hlist, List.forall_mem_cons, List.forall_mem_cons, List.forall_mem_singleton] at hiff
    obtain ⟨values, hbind⟩ := hiff.2 ⟨
      ⟨fun _ => ⟨"id", .text "7", rfl, rfl⟩, fun v type hv _ ht => by
        cases hv
        cases ht
        exact ⟨.int 7, rfl⟩⟩,
      ⟨fun _ => ⟨"first", .null, rfl, rfl⟩, fun v type hv hn ht => nomatch ht⟩,
      ⟨fun _ => ⟨"first", .null, rfl, rfl⟩, fun v type hv hn ht => nomatch ht⟩⟩
    exact ⟨values, hbind, by rw [(hvalues values hbind).1, hlist]; rfl⟩
  · obtain ⟨hiff, -, herrors⟩ := bind_compiled hout [("id", .text "7")]
    cases hbind : out.bind [("id", .text "7")] with
    | ok values =>
      obtain ⟨name, v, hname, hv⟩ := (hiff.1 ⟨values, hbind⟩ ⟨some "first", none, none⟩
        (by rw [hlist]; simp)).1 rfl
      cases hname
      cases hv
    | error e => exact ⟨e, rfl, (herrors e hbind).1⟩

end QueryPlan
