import Stylesheet.Proofs.Declaration.Purity

/-!
# Ledgers of pure computations

Computations that are described by data are pure, unless they give their values in turn or change
lists.  A chain
enters a new computation with every call, so what it gives depends on the ledger; but the new
computations give the same in every ledger.

## Main definitions

* `Ledger.Enters` — what can be called on a ledger.
* `Computation.IsSteady` — computations that neither give their values in turn nor change lists.
* `Ledger.Extends` — ledgers with more computations entered.
* `Ledger.Alike` — computations of two ledgers that are described by the same data.

## Main statements

* `Ledger.extends_of_reaches` — calls enter computations, and remove none.
* `Ledger.isLikeness_alike` — the same data give the same.
* `Ledger.isPure` — trees of such computations are pure.
-/

namespace Stylesheet

open Value (CallsOnly)

/-- What can be called on a ledger: a method, or a computation that is entered. -/
def Ledger.Enters (ledger : Ledger) : Value → Prop
  | .deferred id _ => id < ledger.computations.size
  | .method _ _ => True
  | _ => False

/-- A computation that gives the same with every call, as far as that is already on a ledger, and
changes no list. -/
def Computation.IsSteady (ledger : Ledger) : Computation → Prop
  | give value | chain _ value | get _ value => value.CallsOnly ledger.Enters
  | inTurn _ | change _ _ => False
  | item _ | attr _ | itself | keys | signal _ _ => True

/-- A ledger on which nothing gives its values in turn or changes lists, and options whose entries
can be called on it. -/
structure Ledger.IsSteady (ledger : Ledger) (o : Options) : Prop where
  computations {id : Nat} {computation : Computation} :
    ledger.computations[id]? = some computation → computation.IsSteady ledger
  options : o.toValue.CallsOnly ledger.Enters

namespace Ledger

/-! ## Ledgers with more computations -/

/-- Ledgers of which the second holds what the first does, and maybe more. -/
def Extends (ledger ledger' : Ledger) : Prop :=
  ∀ (id : Nat) (computation : Computation), ledger.computations[id]? = some computation →
    ledger'.computations[id]? = some computation

theorem Extends.trans {ledger ledger' ledger'' : Ledger} (h : ledger.Extends ledger')
    (h' : ledger'.Extends ledger'') : ledger.Extends ledger'' :=
  fun id computation hentered => h' id computation (h id computation hentered)

theorem extends_enter (ledger : Ledger) (computation : Computation) :
    ledger.Extends (ledger.enter computation).2 := by
  intro id computation' hentered
  obtain ⟨hid, -⟩ := Array.getElem?_eq_some_iff.1 hentered
  rw [enter, Array.getElem?_push, if_neg (Nat.ne_of_lt hid), hentered]

/-- The ledger after a call has been entered. -/
def entering (ledger : Ledger) (id : Nat) : Ledger :=
  { ledger with calls := id :: ledger.calls }

theorem run_call (argument : Argument) (id : Nat) (ledger : Ledger) :
    (call argument id).run.run ledger =
      match ledger.computations[id]? with
      | some computation => (perform argument id computation).run.run (ledger.entering id)
      | none => (.error .wrongType, ledger.entering id) := by
  change ((match ledger.computations[id]? with
    | some computation => perform argument id computation
    | none => throw .wrongType : Run Ledger Value).run.run (ledger.entering id)) = _
  cases ledger.computations[id]? <;> rfl

theorem run_get_bind {α : Type} (next : Ledger → Run Ledger α) (ledger : Ledger) :
    (get >>= next).run.run ledger = (next ledger).run.run ledger := rfl

theorem extends_perform (argument : Argument) (id : Nat) (computation : Computation)
    (ledger : Ledger) :
    ledger.Extends ((perform argument id computation).run.run ledger).2 := by
  cases computation with
  | chain calls value =>
    rw [perform]
    split
    · exact fun _ _ h => h
    · exact extends_enter ledger _
  | inTurn values =>
    have hstate : ((perform argument id (.inTurn values)).run.run ledger).2 = ledger := by
      rw [perform, run_get_bind]
      dsimp only
      cases values[ledger.calls.count id - 1]? <;> cases values.getLast? <;> rfl
    rw [hstate]
    exact fun _ _ h => h
  | _ => exact fun _ _ h => h

/-- Calls enter computations, and remove none. -/
theorem extends_of_reaches {ledger ledger' : Ledger} (h : Caller.Reaches call ledger ledger') :
    ledger.Extends ledger' := by
  induction h with
  | refl => exact fun _ _ h => h
  | @tail before after _ hcall ih =>
    obtain ⟨argument, id, rfl⟩ := hcall
    refine ih.trans ?_
    rw [run_call]
    cases before.computations[id]? with
    | none => exact fun _ _ h => h
    | some computation => exact extends_perform argument id computation (before.entering id)

/-! ## What computations give -/

variable {computations : Value → Prop} {o : Options} {value : Value}

theorem callsOnly_of_lookup {entries : List (Value × Value)} {key : Value}
    (h : ∀ entry ∈ entries, entry.2.CallsOnly computations)
    (hvalue : Value.lookup? entries key = some value) : value.CallsOnly computations := by
  obtain ⟨entry, hfind, rfl⟩ := Option.map_eq_some_iff.1 hvalue
  exact h entry (List.mem_of_find?_eq_some hfind)

theorem callsOnly_of_find {key : Value} (ho : o.toValue.CallsOnly computations)
    (hvalue : o.find? key = .ok (some value)) : value.CallsOnly computations := by
  rw [Options.find?] at hvalue
  split at hvalue
  · exact callsOnly_of_lookup (Value.callsOnly_mapping_iff.1 ho) (Except.ok.inj hvalue)
  · cases hvalue

theorem callsOnly_of_item {key : Value} (ho : o.toValue.CallsOnly computations)
    (hvalue : o.item key = .ok value) : value.CallsOnly computations := by
  rw [Options.item] at hvalue
  rcases hfind : o.find? key with fault | _ | found
  · rw [hfind] at hvalue
    cases hvalue
  · rw [hfind] at hvalue
    change (do throw (Fault.noEntry (← Value.shown key)) : Except Fault Value) = .ok value at hvalue
    cases hshown : Value.shown key <;> rw [hshown] at hvalue <;> cases hvalue
  · rw [hfind] at hvalue
    cases hvalue
    exact callsOnly_of_find ho hfind

theorem callsOnly_of_getD {key fallback : Value} (ho : o.toValue.CallsOnly computations)
    (hfallback : fallback.CallsOnly computations) (hvalue : o.getD key fallback = .ok value) :
    value.CallsOnly computations := by
  rw [Options.getD] at hvalue
  rcases hfind : o.find? key with fault | _ | found
  · rw [hfind] at hvalue
    cases hvalue
  · rw [hfind] at hvalue
    cases hvalue
    exact hfallback
  · rw [hfind] at hvalue
    cases hvalue
    exact callsOnly_of_find ho hfind

/-- Nothing can be called in the settings of options. -/
theorem callsOnly_toValue_iff : o.toValue.CallsOnly computations ↔
    ∀ entry ∈ o.extras, entry.2.CallsOnly computations := by
  have hplain {value : Value} (h : value.isPlain = true) : value.CallsOnly computations :=
    Value.callsOnly_of_isPlain h
  have hcustoms : o.customsValue.CallsOnly computations := by
    unfold Options.customsValue
    split <;> exact hplain rfl
  rw [Options.toValue, Value.callsOnly_mapping_iff, Options.entries]
  simp only [List.forall_mem_cons]
  exact ⟨fun h => h.2.2.2.2, fun h => ⟨hplain rfl, hplain rfl, hplain rfl, hcustoms, h⟩⟩

/-- Nothing can be called in options for which nothing is set. -/
theorem callsOnly_default : Options.default.toValue.CallsOnly computations :=
  callsOnly_toValue_iff.2 (List.forall_mem_nil _)

/-- What methods give calls what their argument calls, and methods. -/
theorem callsOnly_of_callMethod (ho : o.toValue.CallsOnly computations)
    (hmethod : ∀ m owner, computations (.method m owner)) {m : Method} {owner : Value}
    {s s' : Ledger} (hvalue : (Value.callMethod call m owner o).run.run s = (.ok value, s')) :
    value.CallsOnly computations := by
  obtain ⟨-, rfl | rfl | rfl | hplain, -⟩ := Caller.callMethod_eq_ok hvalue
  · exact ho
  · have hextras := callsOnly_toValue_iff.1 ho
    exact callsOnly_toValue_iff.2 hextras
  · exact (Value.callsOnly_iff_of_isCallable rfl).2 (hmethod _ _)
  · exact Value.callsOnly_of_isPlain hplain

theorem callsOnly_of_plainAttr {name : String} (ho : o.toValue.CallsOnly computations)
    (hvalue : Options.Handle.plainAttr? (some o) name = some value) :
    value.CallsOnly computations := by
  have hinnards : ∀ entry ∈ Options.Handle.innards (some o), entry.2.CallsOnly computations := by
    simpa [Options.Handle.innards] using Value.callsOnly_mapping_iff.1 ho
  unfold Options.Handle.plainAttr? at hvalue
  split at hvalue
  case h_1 =>
    cases hvalue
    exact Value.callsOnly_mapping_iff.2 (Value.callsOnly_mapping_iff.1 callsOnly_default)
  case h_2 =>
    cases hvalue
    exact Value.callsOnly_mapping_iff.2 hinnards
  case h_10 => exact callsOnly_of_lookup hinnards hvalue
  all_goals
    cases hvalue
    exact Value.callsOnly_of_isPlain rfl

/-- What options have as attributes calls what their entries call, and methods. -/
theorem callsOnly_of_attr {name : String} (ho : o.toValue.CallsOnly computations)
    (hmethod : ∀ m owner, computations (.method m owner))
    (hvalue : o.attr name = .ok value) : value.CallsOnly computations := by
  rw [Options.attr, Options.Handle.attr] at hvalue
  split at hvalue
  case h_1 shared hshared =>
    cases hvalue
    rw [Options.Handle.sharedAttr?] at hshared
    split at hshared
    · cases hshared
      exact (Value.callsOnly_iff_of_isCallable rfl).2 (hmethod _ _)
    · exact callsOnly_of_plainAttr ho hshared
  case h_2 =>
    split at hvalue
    · cases hvalue
    · split at hvalue
      case h_1 hfield =>
        cases hvalue
        exact callsOnly_of_lookup (Value.callsOnly_mapping_iff.1 ho) hfield
      case h_2 => cases hvalue

/-! ## Computations that are alike -/

/-- Computations of two ledgers that extend another one, described by the same data. -/
inductive Alike (start s t : Ledger) : Value → Value → Prop
  | method (hs : start.Extends s) (ht : start.Extends t) (m : Method) (owner : Value) :
      Alike start s t (.method m owner) (.method m owner)
  | deferred (hs : start.Extends s) (ht : start.Extends t) {id id' : Nat}
      {shown shown' : Except Fault String} {computation : Computation}
      (hid : s.computations[id]? = some computation)
      (hid' : t.computations[id']? = some computation) (hsteady : computation.IsSteady start) :
      Alike start s t (.deferred id shown) (.deferred id' shown')

section

variable {start s s' t : Ledger} (hstart : start.IsSteady o)
include hstart

/-- What can be called on a ledger is like itself on all that extend it. -/
theorem alike_self (hs : start.Extends s) (ht : start.Extends t) {f : Value}
    (hf : start.Enters f) : Alike start s t f f := by
  cases f with
  | deferred id shown =>
    have hid : start.computations[id]? = some start.computations[id] :=
      Array.getElem?_eq_getElem hf
    exact .deferred hs ht (hs _ _ hid) (ht _ _ hid) (hstart.computations hid)
  | method m owner => exact .method hs ht m owner
  | _ => cases hf

theorem replaces_self (hs : start.Extends s) (ht : start.Extends t)
    (hvalue : value.CallsOnly start.Enters) : value.Replaces (Alike start s t) value :=
  Value.replaces_self fun f hf => alike_self hstart hs ht (hvalue f hf)

/-- The same data give the same. -/
theorem perform_alike {id id' : Nat} {computation : Computation} (hs : start.Extends s)
    (ht : start.Extends t) (hid : s.computations[id]? = some computation)
    (hid' : t.computations[id']? = some computation) (hsteady : computation.IsSteady start)
    (hrun : (perform (.options o) id computation).run.run s = (.ok value, s')) :
    ∃ value' t', (perform (.options o) id' computation).run.run t = (.ok value', t') ∧
      value.Replaces (Alike start s' t') value' := by
  have hself : value.CallsOnly start.Enters → value.Replaces (Alike start s t) value :=
    replaces_self hstart hs ht
  cases computation with
  | give given =>
    cases hrun
    exact ⟨_, t, rfl, hself hsteady⟩
  | item key =>
    obtain ⟨hitem, rfl⟩ := Prod.mk.inj hrun
    exact ⟨value, t, by rw [← hitem]; rfl, hself (callsOnly_of_item hstart.options hitem)⟩
  | attr name =>
    obtain ⟨hattr, rfl⟩ := Prod.mk.inj hrun
    refine ⟨value, t, by rw [← hattr]; rfl, hself ?_⟩
    exact callsOnly_of_attr hstart.options (fun _ _ => trivial) hattr
  | get key fallback =>
    obtain ⟨hget, rfl⟩ := Prod.mk.inj hrun
    exact ⟨value, t, by rw [← hget]; rfl, hself (callsOnly_of_getD hstart.options hsteady hget)⟩
  | itself =>
    cases hrun
    exact ⟨_, t, rfl, .root (.deferred hs ht hid hid' hsteady)⟩
  | keys =>
    obtain ⟨hkeys, rfl⟩ := Prod.mk.inj hrun
    refine ⟨value, t, by rw [← hkeys]; rfl, .plain ?_⟩
    change (do return .seq .list ((← (Argument.options o).keys).map .text)) = Except.ok value
      at hkeys
    cases hnames : (Argument.options o).keys <;> rw [hnames] at hkeys <;> cases hkeys
    simp [Value.isPlain, Value.isScalar]
  | inTurn | change => cases hsteady
  | chain calls last =>
    rw [perform] at hrun ⊢
    by_cases hcalls : calls ≤ 1
    · rw [if_pos hcalls] at hrun ⊢
      cases hrun
      exact ⟨_, t, rfl, hself hsteady⟩
    · rw [if_neg hcalls] at hrun ⊢
      cases hrun
      have hentered : ∀ ledger : Ledger, (ledger.enter (.chain (calls - 1) last)).2.computations[
          ledger.computations.size]? = some (.chain (calls - 1) last) := fun ledger => by
        simp [enter]
      exact ⟨_, _, rfl, .root (.deferred (hs.trans (extends_enter s _))
        (ht.trans (extends_enter t _)) (hentered s) (hentered t) hsteady)⟩
  | signal kind text => cases hrun

/-- Being described by the same data is a likeness. -/
theorem isLikeness_alike : Caller.IsLikeness call o (Alike start) where
  isCallable halike := by cases halike <;> exact ⟨rfl, rfl⟩
  later halike hs ht := by
    have hs := extends_of_reaches hs
    have ht := extends_of_reaches ht
    cases halike with
    | method hs₀ ht₀ m owner => exact .method (hs₀.trans hs) (ht₀.trans ht) m owner
    | deferred hs₀ ht₀ hid hid' hsteady =>
      exact .deferred (hs₀.trans hs) (ht₀.trans ht) (hs _ _ hid) (ht _ _ hid') hsteady
  call {s t _ _ _ _} halike hrun := by
    cases halike with
    | method hs ht m owner =>
      obtain ⟨rfl, -, hall⟩ := Caller.callMethod_eq_ok hrun
      exact ⟨_, t, hall t, replaces_self hstart hs ht
        (callsOnly_of_callMethod hstart.options (fun _ _ => trivial) hrun)⟩
    | @deferred hs ht id id' _ _ _ hid hid' hsteady =>
      rw [Value.call, run_call, hid] at hrun
      rw [Value.call, run_call, hid']
      have hs : start.Extends (s.entering id) := hs
      have ht : start.Extends (t.entering id') := ht
      exact perform_alike hstart hs ht hid hid' hsteady hrun

end

/-- Trees that can be called on a steady ledger are pure. -/
theorem isPure {start : Ledger} {o : Options} (hstart : start.IsSteady o) {tree : Value}
    (htree : tree.CallsOnly start.Enters) : tree.IsPure call o start :=
  ⟨Alike start, isLikeness_alike hstart,
    fun f hf => alike_self hstart (fun _ _ h => h) (fun _ _ h => h) (htree f hf)⟩

end Ledger

end Stylesheet
