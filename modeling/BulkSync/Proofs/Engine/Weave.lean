import BulkSync.Proofs.Engine.Step
import BulkSync.Proofs.Engine.Strand
import BulkSync.Proofs.Message.Isolation

/-! # Supersteps whose tasks are woven

Between two actions of woven tasks each task has visited a part of its nodes and keeps what it has sent in its
drawer, and some tasks have handed theirs in (`Job.Underway`). A visit adds one deed to those that are done
(`Underway.visit`), and the last action of a task hands in the letters of its nodes (`Underway.close`); what other
tasks keep to themselves is not touched. In the end every node has been visited once and all letters are on their
way, as if the tasks had taken turns, but in the order in which nodes were visited (`reliable_of_weaves`). -/

namespace BulkSync

variable {γ M : Type}

/-- A drawer with the letters of the nodes that its task has visited. -/
structure Drawer.Collects [Element M] (mail : Mail M) (deed : Nat → Deed M) (visited : List Nat)
    (drawer : Drawer M) : Prop where
  outbox : drawer.outbox = mail.collectAll (lettersOf deed visited) #[]
  sent : drawer.sent = !(lettersOf deed visited).isEmpty

namespace Job

/-- The nodes that the task with a slot has visited when it has carried out so many of its actions. -/
def visitedOf (job : Job γ M) (done : Nat → Nat) (slot : Nat) : List Nat := (job.nodesOf slot).take (done slot)

section Slots

variable {job : Job γ M} {nodes slot other node : Nat} {done : Nat → Nat}

theorem visitedOf_elsewhere (elsewhere : other ≠ slot) (count : Nat) :
    job.visitedOf (Function.update done slot count) other = job.visitedOf done other := by
  rw [visitedOf, visitedOf, Function.update_of_ne elsewhere]

theorem visitedOf_visit (left : done slot < (job.nodesOf slot).length) :
    job.visitedOf (Function.update done slot (done slot + 1)) slot =
      job.visitedOf done slot ++ [(job.nodesOf slot)[done slot]] := by
  rw [visitedOf, visitedOf, Function.update_self, List.take_succ_eq_append_getElem left]

theorem visitedOf_all (all : (job.nodesOf slot).length ≤ done slot) : job.visitedOf done slot = job.nodesOf slot :=
  List.take_of_length_le all

theorem nodup_nodesOf (inside : slot < job.spans.length) : (job.nodesOf slot).Nodup := by
  rw [nodesOf_eq inside]
  exact Span.nodup_toList _

/-- No node belongs to two tasks. -/
theorem nodesOf_apart (tile : Span.Tile 0 job.spans nodes) (inside : slot < job.spans.length)
    (insideToo : other < job.spans.length) (member : node ∈ job.nodesOf slot)
    (memberToo : node ∈ job.nodesOf other) : other = slot := by
  have distinct : ((List.range job.spans.length).flatMap job.nodesOf).Nodup := by
    rw [flatMap_nodesOf tile]
    exact List.nodup_range
  by_contra apart
  have symmetric : Std.Symm (Function.onFun List.Disjoint job.nodesOf) := ⟨fun _ _ => List.Disjoint.symm⟩
  have disjoint := (List.nodup_flatMap.mp distinct).2.forall (List.mem_range.mpr insideToo)
    (List.mem_range.mpr inside) apart
  exact disjoint memberToo member

/-- A task that visits its next node adds it to the nodes that some task has visited. -/
theorem exists_visitedOf_visit (inside : slot < job.spans.length) (left : done slot < (job.nodesOf slot).length)
    (node : Nat) :
    (∃ task < job.spans.length, node ∈ job.visitedOf (Function.update done slot (done slot + 1)) task) ↔
      (∃ task < job.spans.length, node ∈ job.visitedOf done task) ∨ node = (job.nodesOf slot)[done slot] := by
  have grown := visitedOf_visit left
  constructor
  · rintro ⟨task, taskInside, member⟩
    by_cases here : task = slot
    · subst here
      rw [grown, List.mem_append, List.mem_singleton] at member
      exact member.imp_left fun earlier => ⟨task, taskInside, earlier⟩
    · rw [visitedOf_elsewhere here] at member
      exact .inl ⟨task, taskInside, member⟩
  · rintro (⟨task, taskInside, member⟩ | rfl)
    · by_cases here : task = slot
      · subst here
        exact ⟨task, taskInside, grown ▸ List.mem_append_left _ member⟩
      · exact ⟨task, taskInside, (visitedOf_elsewhere here _).symm ▸ member⟩
    · exact ⟨slot, inside, grown ▸ List.mem_append_right _ (List.mem_singleton_self _)⟩

end Slots

variable [GraphView γ] [Element M]

/-- Tasks in the middle of their work: so many actions of each have been carried out, these nodes have been visited
and these tasks are closed, and meanwhile these postings have been made. -/
structure Underway (job : Job γ M) (schema : Schema) (nodes superstep : Nat) (before : Board M) (done : Nat → Nat)
    (visited closed : List Nat) (postings : List (Posting M)) (o : Office M) : Prop where
  distinct : visited.Nodup
  mem_visited : ∀ node, node ∈ visited ↔ ∃ slot < job.spans.length, node ∈ job.visitedOf done slot
  closedOnce : closed.Nodup
  mem_closed : ∀ slot, slot ∈ closed ↔ slot < job.spans.length ∧ (job.nodesOf slot).length < done slot
  worked : before.Worked schema nodes (job.deed schema superstep before) visited o.board
  acts : ∀ node ∈ visited, job.Acts schema superstep before node
  mail : before.mail.postAll postings = .ok o.board.mail
  posted : postings.filterMap Posting.letter? = lettersOf (job.deed schema superstep before) visited
  deposits : postings.filterMap Posting.deposit? =
    closed.map fun slot => (slot, lettersOf (job.deed schema superstep before) (job.nodesOf slot))
  drawers : ∀ slot < job.spans.length, done slot ≤ (job.nodesOf slot).length →
    (o.drawers slot).Collects before.mail (job.deed schema superstep before) (job.visitedOf done slot)
  anySent : o.board.anySent = (before.anySent ||
    !(lettersOf (job.deed schema superstep before) (closed.flatMap job.nodesOf)).isEmpty)

namespace Underway

variable {job : Job γ M} {schema : Schema} {nodes superstep slot : Nat} {before : Board M} {done : Nat → Nat}
  {visited closed : List Nat} {postings : List (Posting M)} {o : Office M} {d : Desk M}

theorem start (store : PropertyStore.Regular schema nodes before.store) (votes : BitSet.Regular nodes before.votes) :
    job.Underway schema nodes superstep before (fun _ => 0) [] [] [] { board := before } where
  distinct := List.nodup_nil
  mem_visited := by simp [visitedOf]
  closedOnce := List.nodup_nil
  mem_closed := by simp
  worked := .nil store votes
  acts := by simp
  mail := rfl
  posted := rfl
  deposits := rfl
  drawers slot _ _ := ⟨by simp [visitedOf, lettersOf, Mail.collectAll], by simp [visitedOf, lettersOf]⟩
  anySent := by simp [lettersOf]

/-- A node that its task has still to visit is as it was in the beginning. -/
theorem same (underway : job.Underway schema nodes superstep before done visited closed postings o)
    {node : Nat} (inside : node < nodes) (absent : node ∉ visited) : before.Same node o.board :=
  ⟨underway.worked.share inside absent, (Mail.postAll_keeps underway.mail).1 node |>.1⟩

theorem absent (underway : job.Underway schema nodes superstep before done visited closed postings o)
    (tile : Span.Tile 0 job.spans nodes) (inside : slot < job.spans.length)
    (left : done slot < (job.nodesOf slot).length) : (job.nodesOf slot)[done slot] ∉ visited := by
  rw [underway.mem_visited]
  rintro ⟨other, insideToo, member⟩
  obtain rfl := nodesOf_apart tile inside insideToo (List.getElem_mem left) (List.mem_of_mem_take member)
  obtain ⟨index, before, here⟩ := List.mem_take_iff_getElem.mp member
  have same := (nodup_nodesOf inside).getElem_inj_iff.mp here
  omega

/-- The drawers of other tasks are not touched. -/
theorem elsewhere (underway : job.Underway schema nodes superstep before done visited closed postings o)
    {other : Nat} (apart : other ≠ slot) (inside : other < job.spans.length) (count : Nat)
    (within : Function.update done slot count other ≤ (job.nodesOf other).length) (d : Desk M) :
    ((o.leave slot d).drawers other).Collects before.mail (job.deed schema superstep before)
      (job.visitedOf (Function.update done slot count) other) := by
  rw [Function.update_of_ne apart] at within
  rw [visitedOf_elsewhere apart, Office.drawers_leave apart]
  exact underway.drawers other inside within

/-- A task that visits its next node adds the deed of that to those that are done. -/
theorem visit (underway : job.Underway schema nodes superstep before done visited closed postings o)
    (tile : Span.Tile 0 job.spans nodes) (inside : slot < job.spans.length)
    (left : done slot < (job.nodesOf slot).length) (down : o.board.raised = false)
    (ran : (job.attend false superstep (job.nodesOf slot)[done slot]).outcome (o.desk slot) = (.ok (), d)) :
    ∃ sends, job.Underway schema nodes superstep before (Function.update done slot (done slot + 1))
      (visited ++ [(job.nodesOf slot)[done slot]]) closed (postings ++ sends) (o.leave slot d) := by
  have absent := underway.absent tile inside left
  have grown := visitedOf_visit left
  have nodeInside := nodesOf_inside tile inside (List.getElem_mem left)
  have among := exists_visitedOf_visit inside left
  generalize (job.nodesOf slot)[done slot] = node at *
  rw [attend_down job superstep node down] at ran
  obtain ⟨walked, acts⟩ := visit_walked (d := o.desk slot) nodeInside (underway.same nodeInside absent)
    underway.worked.store underway.worked.votes ran
  have worked := walked.worked
  have letters := lettersOf_singleton (job.deed schema superstep before) node
  -- with a reducer the letters are folded at once, and without one they are in the drawer
  refine ⟨(job.deed schema superstep before node).letters.map fun letter => .send letter.1 letter.2, ?_⟩
  refine { distinct := ?distinct, mem_visited := ?mem_visited, closedOnce := underway.closedOnce,
           mem_closed := ?mem_closed, worked := underway.worked.trans worked.board, acts := ?acts, mail := ?mail,
           posted := ?posted, deposits := ?deposits, drawers := ?drawers,
           anySent := worked.anySent.trans underway.anySent }
  case distinct =>
    rw [(List.perm_append_singleton node visited).nodup_iff]
    exact List.nodup_cons.mpr ⟨absent, underway.distinct⟩
  case mem_visited =>
    intro other
    rw [List.mem_append, List.mem_singleton, underway.mem_visited, among]
  case mem_closed =>
    intro other
    rw [underway.mem_closed]
    by_cases here : other = slot
    · subst here
      rw [Function.update_self]
      omega
    · rw [Function.update_of_ne here]
  case acts =>
    intro other member
    rcases List.mem_append.mp member with earlier | here
    · exact underway.acts other earlier
    · exact List.mem_singleton.mp here ▸ acts
  case mail =>
    rw [Mail.postAll_append, underway.mail, ← letters]
    exact (Mail.postAll_sends _ _).trans worked.mail
  case posted =>
    rw [List.filterMap_append, underway.posted, filterMap_letter_sends, lettersOf_append, letters]
  case deposits =>
    rw [List.filterMap_append, underway.deposits, Mail.filterMap_deposit_sends, List.append_nil]
  case drawers =>
    intro other otherInside within
    by_cases here : other = slot
    · subst here
      have own := underway.drawers other inside (Nat.le_of_lt left)
      have desk := Office.desk_leave o other d
      constructor
      · rw [grown, lettersOf_append, Mail.collectAll_append, ← own.outbox,
          ← Mail.collectAll_congr (Mail.postAll_keeps underway.mail).2]
        exact (congrArg Desk.outbox desk).trans worked.outbox
      · rw [grown, some_lettersOf_append, ← own.sent]
        exact (congrArg Desk.sent desk).trans worked.sent
    · exact underway.elsewhere here otherInside _ within d

/-- The last action of a task hands in the letters of its nodes. -/
theorem close (underway : job.Underway schema nodes superstep before done visited closed postings o)
    (inside : slot < job.spans.length) (all : done slot = (job.nodesOf slot).length)
    (ran : (handIn slot).outcome (o.desk slot) = (.ok (), d)) :
    job.Underway schema nodes superstep before (Function.update done slot (done slot + 1)) visited
      (closed ++ [slot])
      (postings ++ [.deposit slot (lettersOf (job.deed schema superstep before) (job.nodesOf slot))])
      (o.leave slot d) := by
  obtain ⟨meter, -, rfl⟩ := handIn_ok ran
  have whole : job.visitedOf done slot = job.nodesOf slot := visitedOf_all (Nat.le_of_eq all.symm)
  have own := underway.drawers slot inside (Nat.le_of_eq all)
  rw [whole] at own
  have worked := underway.worked
  refine { distinct := underway.distinct, mem_visited := ?mem_visited, closedOnce := ?closedOnce,
           mem_closed := ?mem_closed, acts := underway.acts, mail := ?mail, posted := ?posted,
           worked := ⟨worked.store, worked.word, worked.votes, worked.vote, worked.record⟩,
           deposits := ?deposits, drawers := ?drawers, anySent := ?anySent }
  case mem_visited =>
    intro node
    have same : ∀ task, job.visitedOf (Function.update done slot (done slot + 1)) task = job.visitedOf done task := by
      intro task
      by_cases here : task = slot
      · subst here
        rw [whole, visitedOf_all]
        rw [Function.update_self]
        omega
      · exact visitedOf_elsewhere here _
    simp only [same]
    exact underway.mem_visited node
  case closedOnce =>
    rw [(List.perm_append_singleton slot closed).nodup_iff]
    refine List.nodup_cons.mpr ⟨fun member => ?_, underway.closedOnce⟩
    have gone := ((underway.mem_closed slot).mp member).2
    omega
  case mem_closed =>
    intro other
    rw [List.mem_append, List.mem_singleton, underway.mem_closed]
    by_cases here : other = slot
    · subst here
      rw [Function.update_self]
      simp only [or_true, inside, true_and, true_iff]
      omega
    · rw [Function.update_of_ne here]
      simp [here]
  case mail =>
    rw [Mail.postAll_append, underway.mail]
    have deposited : Mail.post o.board.mail
        (.deposit slot (lettersOf (job.deed schema superstep before) (job.nodesOf slot))) =
          .ok (o.board.mail.deposit slot (o.drawers slot).outbox) := by
      rw [Mail.post, Mail.collectAll_congr (Mail.postAll_keeps underway.mail).2, own.outbox]
    exact bind_eq_ok_iff.mpr ⟨_, rfl, bind_eq_ok_iff.mpr ⟨_, deposited, rfl⟩⟩
  case posted =>
    rw [List.filterMap_append, underway.posted]
    exact List.append_nil _
  case deposits =>
    rw [List.filterMap_append, underway.deposits, List.map_append]
    rfl
  case drawers =>
    intro other otherInside within
    have apart : other ≠ slot := by
      -- the drawer that is emptied is of no further use
      rintro rfl
      rw [Function.update_self] at within
      omega
    exact underway.elsewhere apart otherInside _ within _
  case anySent =>
    rw [List.flatMap_append, List.flatMap_cons, List.flatMap_nil, List.append_nil, some_lettersOf_append,
      ← Bool.or_assoc, ← underway.anySent, ← own.sent]
    rfl

end Underway

variable {job : Job γ M} {schema : Schema} {nodes superstep slot : Nat} {before : Board M} {done : Nat → Nat}
  {o : Office M}

theorem length_strand (job : Job γ M) (superstep : Nat) {slot : Nat} (inside : slot < job.spans.length) :
    (job.strand superstep slot job.spans[slot]).length = (job.nodesOf slot).length + 1 := by
  rw [nodesOf_eq inside]
  simp [strand]

theorem getElem_strand (job : Job γ M) (superstep : Nat) {slot : Nat} (inside : slot < job.spans.length) {index : Nat}
    (more : index < (job.nodesOf slot).length) : (job.strand superstep slot job.spans[slot])[index]? =
      some (Office.action slot fun seen => job.attend seen.failed superstep (job.nodesOf slot)[index]) := by
  simp only [nodesOf_eq inside] at more ⊢
  rw [strand, List.getElem?_append_left (by simpa using more)]
  simp [more]

theorem getElem_strand_last (job : Job γ M) (superstep : Nat) {slot : Nat} (inside : slot < job.spans.length) :
    (job.strand superstep slot job.spans[slot])[(job.nodesOf slot).length]? =
      some (Office.action slot fun _ => handIn slot) := by
  rw [nodesOf_eq inside]
  simp [strand]

/-- Tasks that are woven are underway as long as they have actions left. -/
theorem underway_of_woven (tile : Span.Tile 0 job.spans nodes)
    (store : PropertyStore.Regular schema nodes before.store) (votes : BitSet.Regular nodes before.votes)
    (woven : Woven Office.raised (job.strands superstep) { board := before } done o) :
    ∃ visited closed postings, job.Underway schema nodes superstep before done visited closed postings o := by
  induction woven with
  | start => exact ⟨[], [], [], .start store votes⟩
  | @act done o p slot woven down inside left ran inductionHypothesis =>
    obtain ⟨visited, closed, postings, underway⟩ := inductionHypothesis
    obtain ⟨bound, here⟩ := getElem_strands inside
    simp only [here] at left ran
    have count := job.length_strand superstep bound
    rcases Nat.lt_or_ge (done slot) (job.nodesOf slot).length with more | all
    · obtain ⟨_, visit⟩ := List.getElem?_eq_some_iff.mp (job.getElem_strand superstep bound more)
      rw [visit] at ran
      obtain ⟨d, visits, rfl⟩ := Office.of_action_ok ran
      obtain ⟨sends, onward⟩ := underway.visit tile bound more down visits
      exact ⟨_, _, _, onward⟩
    · have all : done slot = (job.nodesOf slot).length := by omega
      obtain ⟨_, last⟩ := List.getElem?_eq_some_iff.mp (job.getElem_strand_last superstep bound)
      simp only [all, last] at ran
      obtain ⟨d, handsIn, rfl⟩ := Office.of_action_ok ran
      exact ⟨_, _, _, underway.close bound all handsIn⟩

/-- Once no task has an action left, every node has been visited and every task has handed in. -/
theorem Underway.through {visited closed : List Nat} {postings : List (Posting M)}
    (underway : job.Underway schema nodes superstep before done visited closed postings o)
    (tile : Span.Tile 0 job.spans nodes) (all : ∀ slot < job.spans.length, done slot = (job.nodesOf slot).length + 1) :
    visited.Perm (List.range nodes) ∧ closed.Perm (List.range job.spans.length) := by
  constructor
  · refine (List.perm_ext_iff_of_nodup underway.distinct List.nodup_range).mpr fun node => ?_
    rw [underway.mem_visited, ← flatMap_nodesOf tile, List.mem_flatMap]
    refine exists_congr fun slot => ?_
    rw [List.mem_range]
    refine and_congr_right fun inside => ?_
    rw [visitedOf_all (by rw [all slot inside]; exact Nat.le_succ _)]
  · refine (List.perm_ext_iff_of_nodup underway.closedOnce List.nodup_range).mpr fun slot => ?_
    rw [underway.mem_closed, List.mem_range]
    exact ⟨fun here => here.1, fun inside => ⟨inside, by rw [all slot inside]; exact Nat.lt_succ_self _⟩⟩

section Opened

variable {slots : Nat} {letters : List (Nat × M)} {b : Board M} {visited closed : List Nat}
  {postings : List (Posting M)}

/-- Some task has handed in letters if there are letters. -/
theorem Underway.anySent_through
    (underway : job.Underway schema nodes superstep (job.opened b) done visited closed postings o)
    (tile : Span.Tile 0 job.spans nodes) (closedAll : closed.Perm (List.range job.spans.length)) :
    o.board.anySent = !(lettersOf (job.deed schema superstep b) (List.range nodes)).isEmpty := by
  rw [underway.anySent, deed_opened, (lettersOf_perm (visited_perm tile closedAll)).isEmpty_eq]
  exact Bool.false_or _

/-- Queued letters are delivered slot by slot, so by ascending sender; those that are folded come in the order in
which the nodes were visited. -/
theorem Underway.delivers
    (underway : job.Underway schema nodes superstep (job.opened b) done visited closed postings o)
    (tile : Span.Tile 0 job.spans nodes) (holds : Mail.Holds nodes slots letters job.computation.reducer b.mail)
    (visitedAll : visited.Perm (List.range nodes)) (closedAll : closed.Perm (List.range job.spans.length)) :
    ∃ sent : List (Nat × M), sent.Perm (lettersOf (job.deed schema superstep b) (List.range nodes)) ∧
      (job.computation.reducer = none → sent = lettersOf (job.deed schema superstep b) (List.range nodes)) ∧
      ∀ after, o.board.mail.swap = .ok after →
        Mail.Holds nodes job.spans.length sent job.computation.reducer after := by
  have posted := underway.posted
  have deposits := underway.deposits
  rw [deed_opened] at posted deposits
  have runs : ∀ after, o.board.mail.swap = .ok after →
      Round.run ⟨job.spans.length, postings⟩ b.mail = .ok after := fun after swaps =>
    bind_eq_ok_iff.mpr ⟨o.board.mail, underway.mail, swaps⟩
  cases reducer : job.computation.reducer with
  | none =>
    rw [reducer] at holds
    refine ⟨_, .refl _, fun _ => rfl, fun after swaps => ?_⟩
    rw [← flatMap_nodesOf tile, ← flatMap_lettersOf]
    refine holds.ranQueue (fun deposit member => ?_) (fun slot inside absent => ?_) (runs after swaps)
    · rw [Round.deposits, deposits] at member
      obtain ⟨slot, -, rfl⟩ := List.mem_map.mp member
      rfl
    · rw [Round.deposits, deposits] at absent
      exact absurd (by simpa using closedAll.mem_iff.mpr (List.mem_range.mpr inside)) absent
  | some r =>
    rw [reducer] at holds
    refine ⟨_, lettersOf_perm visitedAll, by simp, fun after swaps => ?_⟩
    have ran := (holds.ran (runs after swaps)).forTasks job.spans.length
    rwa [Round.posted, posted] at ran

end Opened

/-- Tasks that are woven do what the deeds say. -/
theorem reliable_of_weaves (tile : Span.Tile 0 job.spans nodes) (weaves : job.Weaves superstep) :
    job.Reliable schema nodes superstep := by
  intro slots letters b c ready ran
  -- with a reducer the order is known only if the tasks were not interleaved
  by_cases sequential : (job.executor superstep).InSequence Board.raised
  · exact reliable_of_turns tile sequential.takesTurns ready ran
  obtain ⟨o, ⟨done, woven, all, calm⟩, rfl⟩ := weaves _ _ ran
  have store : PropertyStore.Regular schema nodes (job.opened b).store := ready.store
  have votes : BitSet.Regular nodes (job.opened b).votes := ready.votes
  obtain ⟨visited, closed, postings, underway⟩ := underway_of_woven tile store votes woven
  have ends : ∀ slot < job.spans.length, done slot = (job.nodesOf slot).length + 1 := by
    intro slot inside
    have listed : slot < (job.strands superstep).length := by rwa [length_strands]
    obtain ⟨bound, here⟩ := getElem_strands listed
    rw [all slot listed, here, job.length_strand superstep bound]
  obtain ⟨visitedAll, closedAll⟩ := underway.through tile ends
  obtain ⟨sent, same, queued, delivers⟩ := underway.delivers tile ready.mail visitedAll closedAll
  have worked := underway.worked
  rw [deed_opened] at worked
  exact ⟨sent,
    { worked := ⟨visited, visitedAll, worked⟩
      acts := fun node inside => acts_opened (underway.acts node (visitedAll.mem_iff.mpr (List.mem_range.mpr inside)))
      sent := same
      inOrder := fun one => queued (one.resolve_right sequential)
      anySent := by rw [underway.anySent_through tile closedAll, same.isEmpty_eq]
      calm
      delivers }⟩

end Job
end BulkSync
