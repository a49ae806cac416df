import DripStone.BlockCanary.SyncBarrierCanary

/-!
# The barrier of a round

The barrier that a round asks about was at the front of the queue, and its
token is not given again: as long as it is in the queue it is the first one,
and no probe of the round stands in front of it.
-/

namespace DripStone.BlockCanary.SyncBarrier

open DripStone.Library

/-- The round that sent a probe. -/
def Message.sentBy : Message → Option Nat
  | .asyncProbe round _ => some round
  | .syncProbe round _ => some round
  | _ => none

/-- A message that can stand in front of the barrier of a round. -/
def Ahead (round : Nat) (message : Message) : Prop :=
  message.isBarrier = false ∧ message.sentBy ≠ some round

/-- The token that the round under way asks about. -/
def Pc.token : Pc → Option Token
  | .idle => none
  | .startCheckLeaking token => some token
  | .getSyncBarrierToken token _ => some token
  | .sendAsync token _ => some token
  | .sendSync token _ => some token
  | .compare token _ => some token
  | .removeSyncBarrier token => some token
  | .sleep token _ => some token

/-- What holds of the queue in every run. -/
structure Ordered (canary : Canary) : Prop where
  bounded : ∀ token, .barrier token ∈ canary.mMessages →
    token < canary.mNextBarrierToken
  distinct : canary.mMessages.Pairwise fun message later =>
    ∀ token, message = .barrier token → later ≠ .barrier token
  rounds : ∀ message ∈ canary.mMessages, ∀ round,
    message.sentBy = some round → round ≤ canary.round
  posted : ∀ token, canary.pc.token = some token →
    token < canary.mNextBarrierToken
  leads : ∀ token, canary.pc.token = some token →
    canary.mMessages.Pairwise fun message later =>
      later = .barrier token → Ahead canary.round message

theorem ordered_new : Ordered .new := by
  constructor <;> simp [Canary.new, Pc.token]

/-! ## Steps -/

/-- Messages taken out of the queue. -/
theorem Ordered.sublist {canary after : Canary} (ordered : Ordered canary)
    (shorter : List.Sublist after.mMessages canary.mMessages)
    (sameNext : after.mNextBarrierToken = canary.mNextBarrierToken)
    (sameRound : after.round = canary.round)
    (tokens : ∀ token, after.pc.token = some token →
      canary.pc.token = some token) : Ordered after := by
  constructor
  · intro token inAfter
    rw [sameNext]
    exact ordered.bounded token (shorter.subset inAfter)
  · exact ordered.distinct.sublist shorter
  · intro message inAfter round sent
    rw [sameRound]
    exact ordered.rounds message (shorter.subset inAfter) round sent
  · intro token atAfter
    rw [sameNext]
    exact ordered.posted token (tokens token atAfter)
  · intro token atAfter
    rw [sameRound]
    exact (ordered.leads token (tokens token atAfter)).sublist shorter

/-- A message that is no barrier, put anywhere, when it is no probe or put at
the end. -/
theorem Ordered.insert {canary after : Canary} {front back : List Message}
    {message : Message} (ordered : Ordered canary)
    (whole : canary.mMessages = front ++ back)
    (inserted : after.mMessages = front ++ message :: back)
    (free : message.isBarrier = false)
    (sent : ∀ round, message.sentBy = some round →
      round ≤ canary.round ∧ back = [])
    (sameNext : after.mNextBarrierToken = canary.mNextBarrierToken)
    (sameRound : after.round = canary.round)
    (tokens : ∀ token, after.pc.token = some token →
      canary.pc.token = some token) : Ordered after := by
  have noToken : ∀ token, message ≠ .barrier token := by
    rintro token rfl
    exact absurd free (by simp [Message.isBarrier])
  have old : ∀ other ∈ after.mMessages,
      other = message ∨ other ∈ canary.mMessages := by
    intro other inAfter
    rw [inserted] at inAfter
    rw [whole]
    simp only [List.mem_append, List.mem_cons] at inAfter ⊢
    tauto
  constructor
  · intro token inAfter
    rw [sameNext]
    rcases old _ inAfter with same | inBefore
    · exact absurd same.symm (noToken token)
    · exact ordered.bounded token inBefore
  · have distinct := ordered.distinct
    rw [whole, List.pairwise_append] at distinct
    rw [inserted, List.pairwise_append, List.pairwise_cons]
    refine ⟨distinct.1, ⟨?_, distinct.2.1⟩, ?_⟩
    · intro later _ token isBarrier
      exact absurd isBarrier (noToken token)
    · intro earlier inFront later inBack token isBarrier
      rcases List.mem_cons.mp inBack with rfl | inBack
      · exact noToken token
      · exact distinct.2.2 earlier inFront later inBack token isBarrier
  · intro other inAfter round sentOther
    rw [sameRound]
    rcases old other inAfter with rfl | inBefore
    · exact (sent round sentOther).1
    · exact ordered.rounds other inBefore round sentOther
  · intro token atAfter
    rw [sameNext]
    exact ordered.posted token (tokens token atAfter)
  · intro token atAfter
    have leads := ordered.leads token (tokens token atAfter)
    rw [whole, List.pairwise_append] at leads
    rw [inserted, sameRound, List.pairwise_append, List.pairwise_cons]
    refine ⟨leads.1, ⟨?_, leads.2.1⟩, ?_⟩
    · intro later inBack _
      refine ⟨free, ?_⟩
      intro sentHere
      rw [(sent _ sentHere).2] at inBack
      exact absurd inBack List.not_mem_nil
    · intro earlier inFront later inBack isBarrier
      rcases List.mem_cons.mp inBack with rfl | inBack
      · exact absurd isBarrier (noToken token)
      · exact leads.2.2 earlier inFront later inBack isBarrier

theorem Ordered.postSyncBarrier {canary : Canary}
    (ordered : Ordered canary) :
    Ordered (canary.perform .postSyncBarrier).1 := by
  constructor
  · intro token inAfter
    rcases List.mem_append.mp inAfter with old | new
    · exact Nat.lt_succ_of_lt (ordered.bounded token old)
    · obtain rfl := Message.barrier.inj (List.mem_singleton.mp new)
      exact Nat.lt_succ_self _
  · apply List.pairwise_append.mpr
    refine ⟨ordered.distinct, List.pairwise_singleton _ _, ?_⟩
    rintro message inBefore later isNew token rfl
    rw [List.mem_singleton.mp isNew]
    intro same
    have below := ordered.bounded token inBefore
    rw [Message.barrier.inj same] at below
    exact absurd below (lt_irrefl _)
  · intro message inAfter round sent
    rcases List.mem_append.mp inAfter with old | new
    · exact ordered.rounds message old round sent
    · rw [List.mem_singleton.mp new] at sent
      exact absurd sent (by simp [Message.sentBy])
  · intro token atAfter
    exact Nat.lt_succ_of_lt (ordered.posted token atAfter)
  · intro token atAfter
    apply List.pairwise_append.mpr
    refine ⟨ordered.leads token atAfter, List.pairwise_singleton _ _, ?_⟩
    intro message _ later isNew isBarrier
    rw [List.mem_singleton.mp isNew] at isBarrier
    have below := ordered.posted token atAfter
    rw [Message.barrier.inj isBarrier] at below
    exact absurd below (lt_irrefl _)

theorem Ordered.onCheck {canary : Canary} (ordered : Ordered canary)
    (timedOut : Bool) : Ordered (canary.onCheck timedOut) := by
  rw [Canary.onCheck]
  split
  · rename_i token _ isHead
    cases timedOut with
    | false => exact ordered
    | true =>
        obtain ⟨rest, whole⟩ :=
          List.head?_eq_some_iff.mp isHead
        have distinct := ordered.distinct
        rw [whole, List.pairwise_cons] at distinct
        have once : ∀ later ∈ rest, later ≠ .barrier token :=
          fun later inRest => distinct.1 later inRest token rfl
        constructor
        · exact ordered.bounded
        · exact ordered.distinct
        · intro message inQueue round sent
          exact Nat.le_succ_of_le
            (ordered.rounds message inQueue round sent)
        · intro other atAfter
          obtain rfl := Option.some.inj atAfter
          exact ordered.bounded token (by rw [whole]; exact
            List.mem_cons_self)
        · intro other atAfter
          obtain rfl := Option.some.inj atAfter
          simp only [whole]
          apply List.Pairwise.cons
          · intro later inRest isBarrier
            exact absurd isBarrier (once later inRest)
          · apply List.pairwise_of_forall_mem_list
            intro message _ later inRest isBarrier
            exact absurd isBarrier (once later inRest)
  · exact ordered

theorem Ordered.handle {canary : Canary} (ordered : Ordered canary)
    (place : Nat) : Ordered (canary.handle place).1 := by
  rw [Canary.handle]
  split
  · rename_i message _
    by_cases may : Canary.mayHandle canary.mMessages place message = true
    · rw [if_pos may]
      have shorter := List.eraseIdx_sublist canary.mMessages place
      cases message with
      | _ => exact ordered.sublist shorter rfl rfl fun _ => id
    · rw [if_neg may]
      exact ordered
  · exact ordered

theorem Ordered.advance {canary : Canary} (ordered : Ordered canary) :
    Ordered canary.advance.1 := by
  have same : ∀ {pc : Pc} {count : Nat}, (∀ token, pc.token = some token →
      canary.pc.token = some token) →
      Ordered { canary with barrierCount := count, pc := pc } :=
    fun tokens => ordered.sublist (List.Sublist.refl _) rfl rfl tokens
  rw [Canary.advance]
  cases atPc : canary.pc with
  | idle => exact ordered
  | startCheckLeaking token =>
      apply same
      simp [atPc, Pc.token]
  | getSyncBarrierToken token checkCount =>
      dsimp only
      split
      · split
        · apply same
          simp [Pc.token]
        · apply same
          simp [atPc, Pc.token]
      · apply same
        simp [Pc.token]
  | sendAsync token checkCount =>
      refine ordered.insert (List.append_nil _).symm rfl rfl ?_ rfl rfl ?_
      · intro round sent
        obtain rfl := Option.some.inj sent
        exact ⟨Nat.le_refl _, rfl⟩
      · simp [atPc, Pc.token]
  | sendSync token checkCount =>
      refine ordered.insert (List.append_nil _).symm rfl rfl ?_ rfl rfl ?_
      · intro round sent
        obtain rfl := Option.some.inj sent
        exact ⟨Nat.le_refl _, rfl⟩
      · simp [atPc, Pc.token]
  | compare token checkCount =>
      dsimp only
      split
      · apply same
        simp [atPc, Pc.token]
      · apply same
        simp [atPc, Pc.token]
  | removeSyncBarrier token =>
      exact ordered.sublist List.erase_sublist rfl rfl (by
        simp [Pc.token])
  | sleep token checkCount =>
      apply same
      simp [atPc, Pc.token]

theorem ordered_after (actions : List Action) :
    Ordered (canaryAfter actions) := by
  apply machine.run_invariant
  · intro canary action ordered
    cases action with
    | postSyncBarrier => exact ordered.postSyncBarrier
    | removeSyncBarrier token =>
        exact ordered.sublist List.erase_sublist rfl rfl fun _ => id
    | post isAsynchronous place =>
        refine ordered.insert (List.take_append_drop place _).symm rfl rfl
          ?_ rfl rfl fun _ => id
        simp [Message.sentBy]
    | handle place => exact ordered.handle place
    | onCheck timedOut => exact ordered.onCheck timedOut
    | step => exact ordered.advance
  · exact ordered_new

/-! ## What follows while the barrier is in the queue -/

theorem firstBarrier_eq_some_iff {messages : List Message} {token : Token} :
    Canary.firstBarrier messages = some token ↔
      ∃ front back, messages = front ++ .barrier token :: back ∧
        ∀ message ∈ front, message.isBarrier = false := by
  induction messages with
  | nil => simp [Canary.firstBarrier]
  | cons first rest inductionHypothesis =>
      rw [Canary.firstBarrier] at inductionHypothesis ⊢
      cases first with
      | barrier other =>
          rw [List.findSome?_cons_of_isSome rfl]
          constructor
          · intro same
            obtain rfl := Option.some.inj same
            exact ⟨[], rest, rfl, by simp⟩
          · rintro ⟨front, back, whole, free⟩
            cases front with
            | nil =>
                obtain ⟨same, _⟩ := List.cons.inj whole
                rw [Message.barrier.inj same]
            | cons message front =>
                obtain ⟨rfl, _⟩ := List.cons.inj whole
                exact absurd (free _ List.mem_cons_self) (by
                  simp [Message.isBarrier])
      | _ =>
          rw [List.findSome?_cons_of_isNone rfl, inductionHypothesis]
          constructor
          · rintro ⟨front, back, rfl, free⟩
            refine ⟨_ :: front, back, rfl, ?_⟩
            intro message inFront
            rcases List.mem_cons.mp inFront with rfl | inFront
            · rfl
            · exact free message inFront
          · rintro ⟨front, back, whole, free⟩
            cases front with
            | nil => exact absurd (List.cons.inj whole).1 (by simp)
            | cons message front =>
                exact ⟨front, back, (List.cons.inj whole).2,
                  fun message inFront => free message
                    (List.mem_cons_of_mem _ inFront)⟩

/-- The barrier of the round is the first one. -/
theorem Ordered.firstBarrier {canary : Canary} {token : Token}
    (ordered : Ordered canary) (asks : canary.pc.token = some token)
    (present : .barrier token ∈ canary.mMessages) :
    Canary.firstBarrier canary.mMessages = some token := by
  obtain ⟨front, back, whole⟩ := List.append_of_mem present
  apply firstBarrier_eq_some_iff.mpr
  refine ⟨front, back, whole, ?_⟩
  intro message inFront
  have leads := ordered.leads token asks
  rw [whole, List.pairwise_append] at leads
  exact (leads.2.2 message inFront _ List.mem_cons_self rfl).1

/-- The main thread handles no synchronous probe of the round. -/
theorem Ordered.not_mayHandle {canary : Canary} {token : Token}
    {place iteration : Nat} (ordered : Ordered canary)
    (asks : canary.pc.token = some token)
    (present : .barrier token ∈ canary.mMessages)
    (found : canary.mMessages[place]? =
      some (.syncProbe canary.round iteration)) :
    Canary.mayHandle canary.mMessages place
      (.syncProbe canary.round iteration) = false := by
  obtain ⟨inBounds, isProbe⟩ := List.getElem?_eq_some_iff.mp found
  have whole := List.take_append_drop place canary.mMessages
  rw [List.drop_eq_getElem_cons inBounds, isProbe] at whole
  have leads := ordered.leads token asks
  rw [← whole] at present
  rw [← whole, List.pairwise_append, List.pairwise_cons] at leads
  have inFront : .barrier token ∈ canary.mMessages.take place := by
    rcases List.mem_append.mp present with inFront | inRest
    · exact inFront
    · rcases List.mem_cons.mp inRest with same | behind
      · exact absurd same (by simp)
      · exact absurd rfl (leads.2.1.1 _ behind rfl).2
  have blocked : (canary.mMessages.take place).any Message.isBarrier =
      true := List.any_eq_true.mpr ⟨_, inFront, rfl⟩
  rw [Canary.mayHandle, blocked]
  rfl

end DripStone.BlockCanary.SyncBarrier
