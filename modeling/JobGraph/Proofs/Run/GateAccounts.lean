import JobGraph.Proofs.Run.Concurrency

/-!
# Accounts of the gate

Names tell apart who stands at the gate, so nobody comes to it under a name that stands there
(`Gate.Apart`).  Then every move at the gate keeps two balances (`Gate.Fair.move`).  Of the queue:
those who do not give up, and the newcomer behind them, are those who are let in and then those who
still wait.  Of the permits: those who do not give theirs back, and those who are let in, are those
who hold one.  Summed up over any moves, nobody is let in before somebody who came earlier, and no
permit is lost (`permits_go_in_turn`).
-/

namespace JobGraph

namespace Gate

/-- What is done at a gate: a call for a permit begins, a permit is given back, or a call that waits
is dropped.  A call that is dropped while its permit is on its way also gives the permit back, which
is a second move. -/
inductive Move where
  | acquire (id : String)
  | release (id : String)
  | cancel (id : String)
  deriving DecidableEq, Repr

def Move.newcomers : Move → List String
  | .acquire id => [id]
  | .release _ | .cancel _ => []

def move (gate : Gate) : Move → Gate
  | .acquire id => gate.acquire id
  | .release id => gate.release id
  | .cancel id => gate.cancel id

def afterMoves (gate : Gate) (moves : List Move) : Gate := moves.foldl move gate

/-- Who comes to the gate by a move neither holds a permit nor waits for one. -/
def Fresh (gate : Gate) (next : Move) : Prop :=
  ∀ id ∈ next.newcomers, id ∉ gate.held ++ gate.waiting

/-- Names tell apart who is at the gate during some moves: nobody comes under a name that stands
there.  A name that is gone may come again. -/
def Apart (gate : Gate) : List Move → Prop
  | [] => True
  | next :: rest => gate.Fresh next ∧ (gate.move next).Apart rest

instance (gate : Gate) (next : Move) : Decidable (gate.Fresh next) :=
  inferInstanceAs (Decidable (∀ id ∈ next.newcomers, id ∉ gate.held ++ gate.waiting))

instance Apart.decidable : ∀ (gate : Gate) (moves : List Move), Decidable (gate.Apart moves)
  | _, [] => inferInstanceAs (Decidable True)
  | gate, next :: rest =>
    have := Apart.decidable (gate.move next) rest
    inferInstanceAs (Decidable (gate.Fresh next ∧ (gate.move next).Apart rest))

/-! ## What is observed of the moves -/

/-- Who holds a permit after a move and held none before. -/
def admitted (gate : Gate) (next : Move) : List String :=
  (gate.move next).held.filter (· ∉ gate.held)

/-- What is noted of some moves, one after the other. -/
def log (note : Gate → Move → List String) (gate : Gate) : List Move → List String
  | [] => []
  | next :: rest => note gate next ++ (gate.move next).log note rest

/-- All to whom permits are granted by some moves, in the order in which they get them. -/
def granted (gate : Gate) (moves : List Move) : List String := gate.log admitted moves

/-- Whether somebody who is in a place at the gate leaves it by a move of its own, having been there
until then. -/
def leaves (place : Gate → List String) (last : String → Move) (gate : Gate) :
    List Move → String → Bool
  | [], _ => false
  | next :: rest, id =>
    (place gate).contains id && (next = last id || (gate.move next).leaves place last rest id)

/-- Those who come to a place at the gate and do not leave it by a move of their own, in the order
in which they come. -/
def lasting (place : Gate → List String) (last : String → Move) (come : Gate → Move → List String)
    (gate : Gate) : List Move → List String
  | [] => []
  | next :: rest =>
    ((come gate next).filter fun id => !(gate.move next).leaves place last rest id) ++
      (gate.move next).lasting place last come rest

/-- Those who ask for a permit and do not give up while they wait, in the order in which they
ask. -/
def patient (gate : Gate) (moves : List Move) : List String :=
  gate.lasting waiting .cancel (fun _ next => next.newcomers) moves

/-- Those to whom a permit is granted and who do not give it back, in the order in which they get
it. -/
def keeping (gate : Gate) (moves : List Move) : List String :=
  gate.lasting held .release admitted moves

/-- Somebody waits before the moves and after each of them. -/
def keepsWaiting (id : String) (gate : Gate) : List Move → Bool
  | [] => gate.awaits id
  | next :: rest => gate.awaits id && (gate.move next).keepsWaiting id rest

/-! ## One move -/

variable {gate : Gate} {next : Move} {moves rest : List Move} {limit : Nat} {id : String}

/-- The queue as it is to be served by a move. -/
def line (gate : Gate) (next : Move) : List String :=
  gate.waiting.filter (next ≠ .cancel ·) ++ next.newcomers

/-- Those who keep their permits in a move. -/
def keepers (gate : Gate) (next : Move) : List String := gate.held.filter (next ≠ .release ·)

theorem move_eq (distinct : gate.held.Nodup) (next : Move) :
    gate.move next = { gate with held := gate.keepers next, waiting := gate.line next }.grant := by
  cases next with
  | acquire id => simp [move, acquire, keepers, line, Move.newcomers]
  | release id =>
      have returned : gate.held.erase id = gate.held.filter (Move.release id ≠ .release ·) := by
        rw [distinct.erase_eq_filter]
        exact List.filter_congr fun other _ => by simp [bne, eq_comm, Bool.beq_eq_decide_eq]
      simp [move, release, keepers, line, Move.newcomers, returned]
  | cancel id =>
      have left : gate.waiting.filter (· ≠ id) = gate.waiting.filter (Move.cancel id ≠ .cancel ·) :=
        List.filter_congr fun other _ => by simp [eq_comm]
      have kept : gate.held.filter (Move.cancel id ≠ .release ·) = gate.held := by simp
      rw [keepers, line, Move.newcomers, List.append_nil, kept, ← left]
      rfl

theorem move_minds (gate : Gate) (next : Move) :
    (gate.move next).limit = gate.limit ∧ (gate.Within → (gate.move next).Within) := by
  cases next with
  | acquire id => exact ⟨(acquire_minds gate id).limit, (acquire_minds gate id).within⟩
  | release id => exact ⟨(release_minds gate id).limit, (release_minds gate id).within⟩
  | cancel id => exact ⟨(cancel_minds gate id).limit, (cancel_minds gate id).within⟩

/-- A move at a fair gate lets in the front of the queue, behind those who keep their permits, and
leaves the gate fair. -/
theorem Fair.move (fair : gate.Fair) (fresh : gate.Fresh next) :
    (gate.move next).Fair ∧ (gate.move next).held = gate.keepers next ++ gate.admitted next ∧
      gate.line next = gate.admitted next ++ (gate.move next).waiting := by
  have holders := (List.nodup_append.1 fair.distinct).1
  have once : next.newcomers.Nodup := by
    cases next <;> simp [Move.newcomers]
  -- Also those who give their permits back in this move are not in the queue that is served.
  have lined : (gate.held ++ gate.line next).Nodup := by
    rw [line, ← List.append_assoc, List.nodup_append]
    refine ⟨fair.distinct.sublist ((List.Sublist.refl _).append List.filter_sublist), once, ?_⟩
    rintro other stands newcomer comes rfl
    refine fresh other comes ?_
    exact (List.mem_append.1 stands).elim (List.mem_append_left _)
      fun waits => List.mem_append_right _ (List.mem_of_mem_filter waits)
  have distinct : (gate.keepers next ++ gate.line next).Nodup :=
    lined.sublist (List.filter_sublist.append (List.Sublist.refl _))
  obtain ⟨served, held, queue, -⟩ :=
    grantFrom_spec { gate with held := gate.keepers next, waiting := gate.line next } distinct
  have sound := (grantFrom_fair
    { gate with held := gate.keepers next, waiting := gate.line next } distinct).1
  have moved := move_eq holders next
  rw [grant] at moved
  rw [← moved] at held queue sound
  -- Those who are served came from the queue, so none of them held a permit.
  have admitted : gate.admitted next = served := by
    rw [Gate.admitted, held, List.filter_append]
    have old : (gate.keepers next).filter (· ∉ gate.held) = [] :=
      List.filter_eq_nil_iff.2 fun other keeps =>
        by simpa using List.mem_of_mem_filter keeps
    have new : served.filter (· ∉ gate.held) = served := by
      refine List.filter_eq_self.2 fun other gets => decide_eq_true fun holds => ?_
      exact (List.nodup_append.1 lined).2.2 other holds other
        (queue ▸ List.mem_append_left _ gets) rfl
    rw [old, new, List.nil_append]
  rw [admitted]
  exact ⟨sound, held, queue⟩

/-- Who waits after a move has got no permit by it. -/
theorem Fair.not_mem_admitted (fair : gate.Fair) (fresh : gate.Fresh next)
    (waits : id ∈ (gate.move next).waiting) : id ∉ gate.admitted next := by
  obtain ⟨sound, held, -⟩ := fair.move fresh
  intro gets
  have holds : id ∈ (gate.move next).held := held ▸ List.mem_append_right _ gets
  exact (List.nodup_append.1 sound.distinct).2.2 id holds id waits rfl

/-! ## Any moves -/

theorem afterMoves_fair (fair : gate.Fair) (apart : gate.Apart moves) :
    (gate.afterMoves moves).Fair := by
  induction moves generalizing gate with
  | nil => exact fair
  | cons next rest inductionHypothesis => exact inductionHypothesis (fair.move apart.1).1 apart.2

theorem afterMoves_minds (gate : Gate) (moves : List Move) :
    (gate.afterMoves moves).limit = gate.limit ∧
      (gate.Within → (gate.afterMoves moves).Within) := by
  induction moves generalizing gate with
  | nil => exact ⟨rfl, id⟩
  | cons next rest inductionHypothesis =>
      obtain ⟨limit, within⟩ := move_minds gate next
      obtain ⟨restLimit, restWithin⟩ := inductionHypothesis (gate.move next)
      exact ⟨restLimit.trans limit, fun good => restWithin (within good)⟩

theorem Apart.append {front : List Move} (apart : gate.Apart (front ++ rest)) :
    gate.Apart front ∧ (gate.afterMoves front).Apart rest := by
  induction front generalizing gate with
  | nil => exact ⟨trivial, apart⟩
  | cons next front inductionHypothesis =>
      obtain ⟨before, after⟩ := inductionHypothesis apart.2
      exact ⟨⟨apart.1, before⟩, after⟩

theorem leaves_eq_false {place : Gate → List String} {last : String → Move}
    (absent : id ∉ place gate) (moves : List Move) : gate.leaves place last moves id = false := by
  cases moves with
  | nil => rfl
  | cons next rest => simp [leaves, absent]

/-- If every move keeps a balance of a place, so do all moves together: those who are in the place
and stay, and those who come to it and stay, are those who are sent on from it and those who are in
it in the end. -/
theorem balance (place : Gate → List String) (last : String → Move)
    (come sent : Gate → Move → List String)
    (law : ∀ gate next, gate.Fair → gate.Fresh next →
      (place gate).filter (next ≠ last ·) ++ come gate next =
          sent gate next ++ place (gate.move next) ∧
        ∀ id ∈ sent gate next, id ∉ place (gate.move next))
    (fair : gate.Fair) (apart : gate.Apart moves) :
    (place gate).filter (fun id => !gate.leaves place last moves id) ++
        gate.lasting place last come moves =
      gate.log sent moves ++ place (gate.afterMoves moves) := by
  induction moves generalizing gate with
  | nil => simp [leaves, lasting, log, afterMoves]
  | cons next rest inductionHypothesis =>
      obtain ⟨one, gone⟩ := law gate next fair apart.1
      have further := inductionHypothesis (fair.move apart.1).1 apart.2
      have here : (place gate).filter (fun id => !gate.leaves place last (next :: rest) id) =
          ((place gate).filter (next ≠ last ·)).filter
            fun id => !(gate.move next).leaves place last rest id := by
        rw [List.filter_filter]
        refine List.filter_congr fun id member => ?_
        simp [leaves, member, Bool.and_comm]
      -- Who is sent on is not in the place any more, so it does not leave it later.
      have onward : (sent gate next).filter
          (fun id => !(gate.move next).leaves place last rest id) = sent gate next :=
        List.filter_eq_self.2 fun id member => by
          rw [leaves_eq_false (gone id member), Bool.not_false]
      rw [lasting, here, ← List.append_assoc, ← List.filter_append, one, List.filter_append,
        onward, List.append_assoc, further, log, List.append_assoc]
      rfl

/-- Permits are granted in the order in which they are asked for. -/
theorem Fair.granted_append_waiting (fair : gate.Fair) (apart : gate.Apart moves)
    (empty : gate.waiting = []) :
    gate.granted moves ++ (gate.afterMoves moves).waiting = gate.patient moves := by
  have sum := balance waiting .cancel (fun _ next => next.newcomers) admitted
    (fun gate next fair fresh =>
      ⟨(fair.move fresh).2.2, fun id gets waits => fair.not_mem_admitted fresh waits gets⟩)
    fair apart
  rw [empty, List.filter_nil, List.nil_append] at sum
  exact sum.symm

theorem log_nothing (gate : Gate) (moves : List Move) : gate.log (fun _ _ => []) moves = [] := by
  induction moves generalizing gate with
  | nil => rfl
  | cons next rest inductionHypothesis => exact inductionHypothesis (gate.move next)

/-- Those hold permits to whom they were granted and who have not given them back. -/
theorem Fair.held_eq_keeping (fair : gate.Fair) (apart : gate.Apart moves)
    (empty : gate.held = []) : (gate.afterMoves moves).held = gate.keeping moves := by
  have sum := balance held .release admitted (fun _ _ => [])
    (fun gate next fair fresh => ⟨(fair.move fresh).2.1.symm, fun _ none => by cases none⟩)
    fair apart
  rw [empty, List.filter_nil, List.nil_append, log_nothing, List.nil_append] at sum
  exact sum.symm

/-! ## Waiting -/

theorem mem_waiting_of_keepsWaiting (waits : gate.keepsWaiting id moves = true) :
    id ∈ gate.waiting := by
  cases moves with
  | nil => simpa [keepsWaiting, awaits] using waits
  | cons next rest =>
      rw [keepsWaiting, Bool.and_eq_true] at waits
      simpa [awaits] using waits.1

/-- If the front of a queue is served but somebody in it is not, the front lies before it. -/
theorem exists_of_served {served left ahead behind : List String}
    (split : ahead ++ id :: behind = served ++ left) (unserved : id ∉ served) :
    ∃ nearer, ahead = served ++ nearer ∧ left = nearer ++ id :: behind := by
  rcases List.append_eq_append_iff.1 split with ⟨others, front, tail⟩ | ⟨nearer, front, tail⟩
  · cases others with
    | nil =>
        rw [List.append_nil] at front
        exact ⟨[], by rw [front, List.append_nil], tail.symm⟩
    | cons other others =>
        obtain ⟨same, -⟩ := List.cons.inj tail
        exact absurd (front ▸ same ▸ List.mem_append_right _ List.mem_cons_self) unserved
  · exact ⟨nearer, front, tail⟩

/-- While somebody waits, permits go to those who wait before it and to nobody else. -/
theorem Fair.granted_sublist (fair : gate.Fair) (apart : gate.Apart moves)
    {ahead behind : List String} (queue : gate.waiting = ahead ++ id :: behind)
    (waits : gate.keepsWaiting id moves = true) : (gate.granted moves).Sublist ahead := by
  induction moves generalizing gate ahead behind with
  | nil => exact List.nil_sublist ahead
  | cons next rest inductionHypothesis =>
      rw [keepsWaiting, Bool.and_eq_true] at waits
      have still := mem_waiting_of_keepsWaiting waits.2
      obtain ⟨sound, -, served⟩ := fair.move apart.1
      have stays : next ≠ .cancel id := by
        rintro rfl
        have lined : id ∈ gate.line (.cancel id) := served ▸ List.mem_append_right _ still
        simp [line, Move.newcomers] at lined
      have kept : (id :: behind).filter (next ≠ .cancel ·) =
          id :: behind.filter (next ≠ .cancel ·) :=
        List.filter_cons_of_pos (decide_eq_true stays)
      rw [line, queue, List.filter_append, kept, List.append_assoc, List.cons_append] at served
      -- The queue is served from its front and `id` still waits: only those before it are served.
      obtain ⟨nearer, front, left⟩ := exists_of_served served (fair.not_mem_admitted apart.1 still)
      have further := inductionHypothesis sound apart.2 left waits.2
      have nearest : (gate.admitted next ++ nearer).Sublist ahead := front ▸ List.filter_sublist
      exact ((List.Sublist.refl _).append further).trans nearest

/-- Until somebody gets its permit, at most those get one who waited when it came. -/
theorem Fair.granted_acquire_sublist (fair : gate.Fair) (apart : gate.Apart (.acquire id :: rest))
    (waits : (gate.acquire id).keepsWaiting id rest = true) :
    (gate.granted (.acquire id :: rest)).Sublist gate.waiting := by
  obtain ⟨sound, -, served⟩ := fair.move apart.1
  have line : gate.line (.acquire id) = gate.waiting ++ [id] := by
    simp [Gate.line, Move.newcomers]
  rw [line] at served
  obtain ⟨ahead, front, left⟩ := exists_of_served served
    (fair.not_mem_admitted apart.1 (mem_waiting_of_keepsWaiting waits))
  have further := sound.granted_sublist apart.2 left waits
  rw [front]
  exact (List.Sublist.refl _).append further

/-! ## Giving up -/

/-- Who gives up while it waits leaves the queue, and everything else at the gate is as it was. -/
theorem Fair.cancel_eq (fair : gate.Fair) (id : String) :
    gate.cancel id = { gate with waiting := gate.waiting.filter (· ≠ id) } := by
  by_cases empty : gate.waiting = []
  · rw [cancel, empty]
    rfl
  · have full : hasRoom { gate with waiting := gate.waiting.filter (· ≠ id) } = false :=
      fair.full empty
    exact grantFrom_of_full full _

/-- Who gives up and returns a permit that may have come meanwhile makes room for the first of the
others that wait, and they keep their order. -/
theorem Fair.cancel_release (fair : gate.Fair) (id : String) :
    ∃ handed, ((gate.cancel id).release id).held = gate.held.filter (· ≠ id) ++ handed ∧
      gate.waiting.filter (· ≠ id) = handed ++ ((gate.cancel id).release id).waiting := by
  have left := fair.cancel_eq id
  have sound : (gate.cancel id).Fair := (cancel_fair fair id).1
  have nobody : (gate.cancel id).Fresh (.release id) := fun _ none => by cases none
  obtain ⟨-, held, queue⟩ := sound.move nobody
  have keepers : (gate.cancel id).keepers (.release id) = gate.held.filter (· ≠ id) := by
    rw [Gate.keepers, left]
    exact List.filter_congr fun other _ => by simp [eq_comm]
  have line : (gate.cancel id).line (.release id) = gate.waiting.filter (· ≠ id) := by
    simp [Gate.line, left, Move.newcomers]
  rw [keepers] at held
  rw [line] at queue
  exact ⟨_, held, queue⟩

/-! ## Free permits -/

theorem Fair.waiting_eq_nil (fair : gate.Fair) (unlimited : gate.limit = 0) :
    gate.waiting = [] := by
  by_contra some
  have full := fair.full some
  simp [hasRoom, unlimited] at full

theorem Fair.available?_eq_zero (fair : gate.Fair) (limited : gate.limit ≠ 0)
    (waits : gate.waiting ≠ []) : gate.available? = some 0 := by
  have full : gate.limit ≤ gate.held.length := by
    simpa [hasRoom, limited] using fair.full waits
  rw [available?, if_neg limited, Nat.sub_eq_zero_of_le full]

theorem Fair.mem_held_acquire (fair : gate.Fair) (unlimited : gate.limit = 0) (id : String) :
    id ∈ (gate.acquire id).held := by
  rw [acquire, fair.waiting_eq_nil unlimited]
  by_cases holds : id ∈ gate.held <;> simp [grant, grantFrom, hasRoom, unlimited, holds]

end Gate

/-- After any moves at a gate at which names tell apart who is there: if it has a limit, at most so
many permits are out, the others are available, and none is while somebody waits.  Those to whom
permits were granted, and behind them those who wait, are those who asked and did not give up, in
the order in which they asked; and those hold permits to whom they were granted and who did not
give them back.  Until somebody who waits gets its permit, permits go to those who waited when it
came, at most one to each.  Who gives up while it waits leaves the permits and the order of the
others as they are, and if its permit has come meanwhile, that goes to the first of the others.
Without a limit everybody gets a permit at once. -/
theorem permits_go_in_turn {limit : Nat} {moves : List Gate.Move} {gate : Gate}
    (apart : (Gate.ofLimit limit).Apart moves)
    (reached : (Gate.ofLimit limit).afterMoves moves = gate) :
    (0 < limit →
      gate.held.length ≤ limit ∧ gate.available? = some (limit - gate.held.length) ∧
        (gate.waiting ≠ [] → gate.available? = some 0)) ∧
      (Gate.ofLimit limit).granted moves ++ gate.waiting = (Gate.ofLimit limit).patient moves ∧
      gate.held = (Gate.ofLimit limit).keeping moves ∧
      (∀ before id rest earlier, moves = before ++ .acquire id :: rest →
        (Gate.ofLimit limit).afterMoves before = earlier →
        (earlier.acquire id).keepsWaiting id rest = true →
          (earlier.granted (.acquire id :: rest)).Sublist earlier.waiting) ∧
      (∀ id, (gate.cancel id).held = gate.held ∧
        (gate.cancel id).waiting = gate.waiting.filter (· ≠ id) ∧
        ∃ handed, ((gate.cancel id).release id).held = gate.held.filter (· ≠ id) ++ handed ∧
          gate.waiting.filter (· ≠ id) = handed ++ ((gate.cancel id).release id).waiting) ∧
      (limit = 0 → gate.available? = none ∧ gate.waiting = [] ∧
        ∀ id, id ∈ (gate.acquire id).held) := by
  have start : (Gate.ofLimit limit).Fair := ⟨List.nodup_nil, fun some => absurd rfl some⟩
  have fair : gate.Fair := reached ▸ Gate.afterMoves_fair start apart
  obtain ⟨kept, within⟩ := Gate.afterMoves_minds (Gate.ofLimit limit) moves
  rw [reached] at kept within
  have same : gate.limit = limit := kept
  refine ⟨?_, ?_, ?_, ?_, ?_, ?_⟩
  · intro positive
    have limited : gate.limit ≠ 0 := by omega
    have most := within (Gate.ofLimit_within limit) limited
    refine ⟨same ▸ most, ?_, fair.available?_eq_zero limited⟩
    rw [Gate.available?, if_neg limited, same]
  · rw [← reached]
    exact start.granted_append_waiting apart rfl
  · rw [← reached]
    exact start.held_eq_keeping apart rfl
  · rintro before id rest earlier rfl came waits
    obtain ⟨apartBefore, apartAfter⟩ := apart.append
    rw [came] at apartAfter
    have fairBefore : earlier.Fair := came ▸ Gate.afterMoves_fair start apartBefore
    exact fairBefore.granted_acquire_sublist apartAfter waits
  · intro id
    have left := fair.cancel_eq id
    exact ⟨by rw [left], by rw [left], fair.cancel_release id⟩
  · intro unlimited
    have none : gate.limit = 0 := same.trans unlimited
    exact ⟨if_pos none, fair.waiting_eq_nil none, fair.mem_held_acquire none⟩

/-- Moves at a gate with one permit: `"c"` gives up in the queue, and `"b"` when its permit is on
its way. -/
def Gate.crowdedMoves : List Gate.Move :=
  [.acquire "a", .acquire "b", .acquire "c", .acquire "d", .acquire "e", .cancel "c", .release "a",
    .cancel "b", .release "b", .acquire "a"]

theorem crowd_takes_turns :
    (Gate.ofLimit 1).Apart Gate.crowdedMoves ∧
      (Gate.ofLimit 1).afterMoves Gate.crowdedMoves = ⟨1, ["d"], ["e", "a"]⟩ ∧
      (Gate.ofLimit 1).patient Gate.crowdedMoves = ["a", "b", "d", "e", "a"] ∧
      (Gate.ofLimit 1).keeping Gate.crowdedMoves = ["d"] ∧
      (((Gate.ofLimit 1).afterMoves (Gate.crowdedMoves.take 4)).granted
        (Gate.crowdedMoves.drop 4)).Sublist
          ((Gate.ofLimit 1).afterMoves (Gate.crowdedMoves.take 4)).waiting ∧
      Gate.available? ⟨1, ["d"], ["e", "a"]⟩ = some 0 := by
  have apart : (Gate.ofLimit 1).Apart Gate.crowdedMoves := by decide
  have reached : (Gate.ofLimit 1).afterMoves Gate.crowdedMoves = ⟨1, ["d"], ["e", "a"]⟩ := by decide
  obtain ⟨permits, order, holders, bound, -, -⟩ := permits_go_in_turn apart reached
  have granted : (Gate.ofLimit 1).granted Gate.crowdedMoves = ["a", "b", "d"] := by decide
  rw [granted] at order
  exact ⟨apart, reached, order.symm, holders.symm,
    bound (Gate.crowdedMoves.take 4) "e" (Gate.crowdedMoves.drop 5) _ rfl rfl (by decide),
    (permits Nat.one_pos).2.2 (List.cons_ne_nil _ _)⟩

end JobGraph
