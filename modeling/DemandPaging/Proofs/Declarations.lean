import DemandPaging.Proofs.AddressSpace
import DemandPaging.Proofs.Machine
import DemandPaging.Proofs.Region

namespace DemandPaging

structure Declaration where
  address : UInt64
  length : UInt64
  permissions : Permissions
  deriving DecidableEq, Repr

namespace Declaration

def region (declaration : Declaration) : Except Stop Region :=
  Region.declare declaration.address declaration.length declaration.permissions

theorem region_cases (declaration : Declaration) :
    (∃ region, declaration.region = .ok region) ∨
      declaration.region = .error (.refused .invalidArgument) :=
  Region.declare_cases declaration.address declaration.length declaration.permissions

def stack : Declaration :=
  ⟨Layout.userStackTop - Layout.userStackSize, Layout.userStackSize, .all⟩

end Declaration

namespace AddressSpace

def stackEnd : VirtualAddress :=
  ⟨Layout.userStackTop.toUInt32⟩

def blank (pool : PoolId) : AddressSpace :=
  ⟨[], .empty pool, stackEnd, false⟩

def withRegion (space : AddressSpace) (region : Region) : AddressSpace :=
  { space with regions := space.regions ++ [region] }

def opened (space : AddressSpace) : AddressSpace :=
  { space with regions := space.regions.map Region.widen, loading := true }

def closed (space : AddressSpace) : AddressSpace :=
  { space with regions := space.regions.map Region.restore, loading := false }

variable {n : Nat} {space : AddressSpace}

theorem defineRegion_of_declared (space : AddressSpace) {declaration : Declaration}
    {region : Region} (h : declaration.region = .ok region) :
    ∃ events,
      defineRegion declaration.address declaration.length declaration.permissions space =
        ⟨.ok (), space.withRegion region, events⟩ := by
  have hdeclare : Region.declare declaration.address declaration.length declaration.permissions =
      .ok region := h
  obtain ⟨finish, hfinish⟩ := Region.exists_finish_of_declare hdeclare
  refine ⟨[.logged (.defined region.base finish declaration.permissions)], ?_⟩
  simp [defineRegion, hdeclare, hfinish, Outcome.after, withRegion]

theorem defineRegion_of_refused (space : AddressSpace) {declaration : Declaration} {reason : Stop}
    (h : declaration.region = .error reason) :
    defineRegion declaration.address declaration.length declaration.permissions space =
      ⟨.error reason, space, []⟩ := by
  refine Action.bind_of_error ?_
  rw [Action.run_lift]
  exact congrArg (Outcome.mk · space []) h

theorem defineStack_eq (h : space.stackBase = stackEnd) :
    defineStack space =
      (do
        defineRegion Declaration.stack.address Declaration.stack.length
          Declaration.stack.permissions
        return stackEnd : Action AddressSpace VirtualAddress) space := by
  have hbottom : Checked.sub stackEnd.word Layout.userStackSize =
      .ok Declaration.stack.address := by
    decide
  rw [defineStack, Action.bind_of_ok (Action.run_current space), Outcome.after_nil, h, hbottom]
  rfl

theorem beginLoad_of_loading (h : space.loading = true) :
    beginLoad space = ⟨.error (.refused .invalidArgument), space, []⟩ := by
  simp [beginLoad, h, Outcome.after]

theorem beginLoad_of_not_loading (h : space.loading = false) :
    beginLoad space = ⟨.ok (), space.opened, [.logged .loadStarted]⟩ := by
  simp [beginLoad, h, Outcome.after, opened]

theorem endLoad_of_not_loading (processor : Processor n) (h : space.loading = false)
    (machines : Machines n) :
    endLoad processor (space, machines) =
      ⟨.error (.refused .invalidArgument), (space, machines), []⟩ := by
  simp [endLoad, h, Outcome.after]

theorem endLoad_eq (processor : Processor n) (h : space.loading = true) (machines : Machines n) :
    endLoad processor (space, machines) =
      (do
        Action.second processor.invalidate
        Action.log .loadFinished : Action (AddressSpace × Machines n) Unit)
        (space.closed, machines) := by
  simp [endLoad, h, Outcome.after, closed]

theorem endLoad_of_loading {processor : Processor n}
    (hsame : processor.cache = processor.interrupts) (h : space.loading = true)
    (machines : Machines n) :
    ∃ events, endLoad processor (space, machines) =
      ⟨.ok (), (space.closed,
        machines.put processor.cache (machines.get processor.cache).emptied), events⟩ := by
  obtain ⟨events, hinvalidate⟩ := Processor.invalidate_of_same hsame machines
  simp [endLoad_eq processor h, hinvalidate, Outcome.after]

section Blind

variable {α : Type}

/-- An operation that neither looks at the table of a space nor changes it. -/
def Blind (x : Action AddressSpace α) : Prop :=
  ∀ space table, x { space with table } =
    ⟨(x space).result, { (x space).state with table }, (x space).events⟩

theorem Blind.table {x : Action AddressSpace α} (hx : Blind x) (space : AddressSpace) :
    (x space).state.table = space.table :=
  congrArg (fun outcome => outcome.state.table) (hx space space.table)

theorem blind_defineRegion (address length : UInt64) (permissions : Permissions) :
    Blind (defineRegion address length permissions) := by
  intro space table
  simp only [defineRegion, Action.run_bind, Action.run_lift]
  cases Region.declare address length permissions with
  | error reason => rfl
  | ok region =>
      simp only [Action.run_update, Action.run_lift_violation]
      cases Checked.add region.base.word region.size <;> rfl

theorem blind_defineStack : Blind defineStack := by
  intro space table
  simp only [defineStack, Action.run_bind, Action.run_current, Action.run_lift_violation]
  cases Checked.sub space.stackBase.word Layout.userStackSize with
  | error assertion => rfl
  | ok bottom =>
      have hregion := blind_defineRegion bottom Layout.userStackSize .all space table
      simp only [Except.mapError_ok, hregion]
      rcases defineRegion bottom Layout.userStackSize .all space with ⟨reason | done, last, events⟩
      · rfl
      · rfl

theorem blind_beginLoad : Blind beginLoad := by
  rintro ⟨regions, table, stackBase, loading⟩ another
  cases loading <;> rfl

end Blind

end AddressSpace

end DemandPaging
