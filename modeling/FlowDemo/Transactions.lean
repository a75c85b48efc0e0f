import FlowDemo.Android.Card.Mounted
import FlowDemo.Android.GooglePay.Transactions
import FlowDemo.Ios.Transactions

/-!
# What the four views build their sessions with

The Android views wait for the end of a transaction and always build from what stands there. The iOS views react to
every prop, and do so only if no transaction passes through another complete triple.
-/

namespace FlowDemo

open Android

variable {D : Type} {Session : Set String} {decode : String → Option D}

theorem card_fromTransactions {es : List Card.Mounted.Event}
    (h : (Card.Mounted.machine Session).Admits (Card.Mounted.machine Session).init es) :
    (Card.Mounted.machine Session).Throughout (fun s => FromTransactions s.managed.ends s.managed.built)
      (Card.Mounted.machine Session).init es :=
  Machine.throughout_of_invariant Card.Mounted.inv_step (fun _ hs => hs.managed.fromTransactions)
    Card.Mounted.inv_init h

theorem googlePay_fromTransactions {es : List GooglePay.Transactions.Event}
    (h : GooglePay.Transactions.machine.Admits GooglePay.Transactions.machine.init es) :
    GooglePay.Transactions.machine.Throughout (fun s => FromTransactions s.managed.ends s.managed.built)
      GooglePay.Transactions.machine.init es :=
  Machine.throughout_of_invariant (I := fun s => s.managed.Inv) GooglePay.Transactions.managed_step
    (fun _ hs => hs.fromTransactions) Managed.inv_init h

/-- **The views of Android always build their sessions from whole transactions, those of iOS exactly in the runs** whose
transactions, while a view is not initialised, pass through no other triple than those that stood at the end of one. -/
theorem sessions_from_transactions (Session : Set String) (decode : String → Option D)
    (card : List Card.Mounted.Event) (googlePay : List GooglePay.Transactions.Event)
    (ios : List Ios.Transactions.Event)
    (hcard : (Card.Mounted.machine Session).Admits (Card.Mounted.machine Session).init card)
    (hgooglePay : GooglePay.Transactions.machine.Admits GooglePay.Transactions.machine.init googlePay)
    (hios : (Ios.Transactions.machine Session decode).Admits (Ios.Transactions.machine Session decode).init ios) :
    (Card.Mounted.machine Session).Throughout (fun s => FromTransactions s.managed.ends s.managed.built)
        (Card.Mounted.machine Session).init card ∧
      GooglePay.Transactions.machine.Throughout (fun s => FromTransactions s.managed.ends s.managed.built)
        GooglePay.Transactions.machine.init googlePay ∧
      ((Ios.Transactions.machine Session decode).Throughout (Ios.Transactions.StaysConsistent Session decode)
          (Ios.Transactions.machine Session decode).init ios ↔
        ((Ios.Transactions.machine Session decode).restrict Ios.Transactions.KeepsTriples).Admits
          (Ios.Transactions.machine Session decode).init ios) :=
  ⟨card_fromTransactions hcard, googlePay_fromTransactions hgooglePay, Ios.Transactions.consistent_throughout_iff hios⟩

def sampleTransaction : List Ios.Property :=
  [.paymentSessionID (some "ps_1"), .paymentSessionSecret (some "pss_1"), .publicKey (some "pk")]

theorem sessions_from_transactions_mount :
    let built := [(0, ⟨"ps_1", "pss_1", "pk"⟩)]
    let ps := sampleTransaction.map Ios.Property.update
    let C := Card.Mounted.machine {"ps_1"}
    let G := GooglePay.Transactions.machine
    let I := Ios.Transactions.machine (D := Unit) {"ps_1"} fun _ => none
    let ios : List Ios.Transactions.Event := [.ios (.create 0 .card), .transaction 0 sampleTransaction,
      .didMoveToWindow 0, .ios (.beginInitialize ⟨0, "ps_1", "pss_1", "pk"⟩)]
    (C.run C.init [.create 0, .transaction 0 ps true]).managed.built = built ∧
      (G.run G.init [.transaction 0 ps true]).managed.built = built ∧ (I.run I.init ios).built = built ∧
      C.Throughout (fun s => FromTransactions s.managed.ends s.managed.built) C.init
        [.create 0, .transaction 0 ps true] ∧
      G.Throughout (fun s => FromTransactions s.managed.ends s.managed.built) G.init [.transaction 0 ps true] ∧
      I.Throughout (Ios.Transactions.StaysConsistent {"ps_1"} fun _ => none) I.init ios := by
  intro built ps C G I ios
  have hcard : C.Admits C.init [.create 0, .transaction 0 ps true] := by
    refine ⟨rfl, ⟨by decide, fun id hid => ?_⟩, trivial⟩
    obtain rfl : id = "ps_1" := by simpa [ps, sampleTransaction, Ios.Property.update] using hid
    rfl
  have hios : I.Admits I.init ios := by
    refine ⟨⟨nofun, rfl⟩, ⟨by decide, fun id hid => ?_⟩, rfl, ⟨nofun, List.mem_cons_self⟩, trivial⟩
    obtain rfl : id = "ps_1" := by simpa [sampleTransaction] using hid
    rfl
  obtain ⟨h1, h2, h3⟩ := sessions_from_transactions {"ps_1"} (fun _ => none) _ [.transaction 0 ps true] ios hcard
    ⟨trivial, trivial⟩ hios
  obtain ⟨k1, k2, k3, k4, -⟩ := hios
  refine ⟨by decide, by decide, by decide, h1, h2, h3.mpr ⟨⟨k1, trivial⟩, ⟨k2, fun _ => ?_⟩, ⟨k3, trivial⟩,
    ⟨k4, trivial⟩, trivial⟩⟩
  decide

/-- A view that has an id and a key gets a secret and another id. -/
def mixedRun (c : Ios.ViewClass) : List Ios.Transactions.Event :=
  [.ios (.create 0 c), .transaction 0 [.paymentSessionID (some "ps_1"), .publicKey (some "pk")],
    .transaction 0 [.paymentSessionSecret (some "pss_2"), .paymentSessionID (some "ps_2")],
    .ios (.beginInitialize ⟨0, "ps_1", "pss_2", "pk"⟩)]

/-- **A session id with the secret of another session**, in either class: the observer of the secret is the first to
see three props. -/
theorem observer_mixes_sessions :
    let M := Ios.Transactions.machine (D := Unit) {"ps_1", "ps_2"} fun _ => none
    let mixes := fun c =>
      let s := M.run M.init (mixedRun c)
      M.Reachable s ∧ s.built = [(0, ⟨"ps_1", "pss_2", "pk"⟩)] ∧
        s.ends 0 = [⟨some "ps_1", none, some "pk"⟩, ⟨some "ps_2", some "pss_2", some "pk"⟩] ∧
        ¬ Ios.Transactions.Consistent s
    mixes .applePay ∧ mixes .card := by
  intro M mixes
  have hadm : ∀ c, M.Admits M.init (mixedRun c) := by
    intro c
    refine ⟨⟨nofun, rfl⟩, ⟨?_, fun id hid => ?_⟩, ⟨?_, fun id hid => ?_⟩, ⟨nofun, ?_⟩, trivial⟩
    · cases c <;> rfl
    · exact Or.inl (by simpa using hid : id = "ps_1")
    · cases c <;> rfl
    · exact Or.inr (by simpa using hid : id = "ps_2")
    · cases c <;> exact List.mem_cons_self
  have hbuilt : ∀ c, (M.run M.init (mixedRun c)).built = [(0, ⟨"ps_1", "pss_2", "pk"⟩)] := by
    intro c
    cases c <;> decide
  have hends : ∀ c, (M.run M.init (mixedRun c)).ends 0 =
      [⟨some "ps_1", none, some "pk"⟩, ⟨some "ps_2", some "pss_2", some "pk"⟩] := by
    intro c
    cases c <;> decide
  have hmixes : ∀ c, mixes c := by
    intro c
    refine ⟨Machine.Reachable.of_admits (hadm c), hbuilt c, hends c, fun h => ?_⟩
    have hstood := h.stood (0, ⟨"ps_1", "pss_2", "pk"⟩) (by rw [hbuilt c]; exact List.mem_singleton_self _)
    rw [hends c] at hstood
    exact absurd hstood (by decide)
  exact ⟨hmixes .applePay, hmixes .card⟩

end FlowDemo
