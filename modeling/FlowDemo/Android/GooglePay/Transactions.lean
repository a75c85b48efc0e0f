import FlowDemo.Android.Manager
import FlowDemo.Android.GooglePay.View

/-!
# Prop transactions of the Google Pay views

The Google Pay views under their view manager, which initialises a view when a transaction has ended.
-/

namespace FlowDemo.Android.GooglePay.Transactions

structure State where
  pay : GooglePay.State := {}
  managed : Managed := {}

namespace State

/-- `view.initialize` as `maybeInit` calls it. An accepted call builds a session. -/
def initializeView (s : State) (v : ViewId) (t : Triple) (activity : Bool) : State where
  pay := s.pay.initializeView v t.paymentSessionID t.paymentSessionSecret activity
  managed := if !(s.pay.view v).hasInitialized && activity then s.managed.build v t else s.managed

def transaction (s : State) (v : ViewId) (ps : List PropUpdate) (activity : Bool) : State :=
  let s := { s with managed := s.managed.update v ps }
  match ViewManager.maybeInit (s.managed.tag v) with
  | none => s
  | some t => s.initializeView v t activity

end State

inductive Event
  | transaction (v : ViewId) (ps : List PropUpdate) (activity : Bool)
  | pay (e : GooglePay.Event)

/-- `initialize` is called by the manager only. -/
def machine : Machine State Event where
  init := {}
  allowed s e := match e with
    | .transaction _ _ _ => True
    | .pay e => (∀ v id secret activity, e ≠ .initializeView v id secret activity) ∧ GooglePay.machine.allowed s.pay e
  step s e := match e with
    | .transaction v ps activity => s.transaction v ps activity
    | .pay e => { s with pay := GooglePay.machine.step s.pay e }

theorem managed_step (s : State) (e : Event) (h : s.managed.Inv) (_ : machine.allowed s e) :
    (machine.step s e).managed.Inv := by
  cases e with
  | transaction v ps activity =>
      change (s.transaction v ps activity).managed.Inv
      unfold State.transaction
      dsimp only
      split
      · exact h.update v ps
      · next t ht =>
          change Managed.Inv (if _ then _ else _)
          split
          · exact (h.update v ps).build ht
          · exact h.update v ps
  | pay e => exact h

end FlowDemo.Android.GooglePay.Transactions
