import PulseLink.Listener
import PulseLink.Strikes

/-! A worker among the other threads of the server is still `client_worker`. Its thread performs the operations
of `client_worker` and, besides, reads its argument; leaving those reads out, what a thread performed to its end
is a run of `client_worker` under the answers it got. So what holds of every such run holds of every worker of
the server, whatever the listener, the signal, `main` and the other workers did meanwhile. -/

namespace PulseLink

/-- What an operation of a thread is for `client_worker`. -/
def asClient : Event HostSig → Option (Event ServerSig)
  | ⟨.serve _ o, ans⟩ => some ⟨o, ans⟩
  | ⟨.activeAdd _, u⟩ => some ⟨.activeAdd, u⟩
  | ⟨.activeSub _, u⟩ => some ⟨.activeSub, u⟩
  | ⟨.close _, u⟩ => some ⟨.closeFd, u⟩
  | ⟨.semPost _, u⟩ => some ⟨.semPost, u⟩
  | ⟨.freeArg _, _⟩ => some ⟨.freeArg, ()⟩
  | _ => none

theorem hosted_asClient (cfd : Nat) (o : ServerOp) (t : List (Event HostSig)) (ans : o.Ans)
    (hpath : (hosted cfd o).Path t ans) : t.filterMap asClient = [⟨o, ans⟩] := by
  cases o with
  | freeArg =>
      obtain ⟨_, _, rfl, hfree⟩ := Proc.path_op_iff.mp hpath
      obtain ⟨_, _, rfl, hret⟩ := Proc.path_op_iff.mp hfree
      obtain ⟨rfl, rfl⟩ := Proc.path_ret_iff.mp hret
      rfl
  | _ =>
      obtain ⟨_, _, rfl, hret⟩ := Proc.path_op_iff.mp hpath
      obtain ⟨rfl, rfl⟩ := Proc.path_ret_iff.mp hret
      rfl

/-- A turn of the thread is a turn of `client_worker`. -/
theorem workerThread_asClient {cfg : Config} {cfd : Nat} {pc : WorkerPc} {t : List (Event HostSig)}
    {x : WorkerPc ⊕ ExitReason} (hpath : (workerThread cfg cfd pc).Path t x) :
    (clientWorker cfg pc).Path (t.filterMap asClient) x := by
  cases pc with
  | enter payload =>
      obtain ⟨_, _, rfl, hturn⟩ := Proc.path_op_iff.mp hpath
      exact hturn.of_expand (hosted_asClient cfd)
  | running l =>
      obtain ⟨t₁, y, t₂, rfl, hturn, hrest⟩ := Proc.path_bind_iff.mp hpath
      have hclient := hturn.of_expand (hosted_asClient cfd)
      rw [List.filterMap_append]
      cases y with
      | inl pc =>
          -- the line at the end of a turn is no operation of `client_worker`
          obtain ⟨arg, _, rfl, hret⟩ := Proc.path_op_iff.mp hrest
          obtain ⟨rfl, rfl⟩ := Proc.path_ret_iff.mp hret
          have hread : [(⟨.readArg cfd, arg⟩ : Event HostSig)].filterMap asClient = [] := rfl
          rwa [hread, List.append_nil]
      | inr why =>
          obtain ⟨rfl, rfl⟩ := Proc.path_ret_iff.mp hrest
          rwa [List.filterMap_nil, List.append_nil]
  | leave why => exact hpath.of_expand (hosted_asClient cfd)

theorem hostBody_asClient {cfg : Config} {cfd : Nat} {pc : WorkerPc} {t : List (Event HostSig)}
    {x : Place ⊕ ThreadEnd}
    (hpath : (hostBody cfg (.worker cfd pc)).Path t x) :
    ∃ y, x = y.map (Place.worker cfd) ThreadEnd.worker ∧ (clientWorker cfg pc).Path (t.filterMap asClient) y := by
  obtain ⟨t₁, y, t₂, rfl, hturn, hret⟩ := Proc.path_bind_iff.mp hpath
  obtain ⟨rfl, rfl⟩ := Proc.path_ret_iff.mp hret
  rw [List.append_nil]
  exact ⟨y, rfl, workerThread_asClient hturn⟩

theorem path_asClient {cfg : Config} {cfd : Nat} {pc : WorkerPc} {t : List (Event HostSig)} {r : ThreadEnd}
    (hpath : Loop.Path (hostBody cfg) (.worker cfd pc) t r) :
    ∃ why, r = .worker why ∧ Loop.Path (clientWorker cfg) pc (t.filterMap asClient) why := by
  generalize hplace : Place.worker cfd pc = place at hpath
  induction hpath generalizing pc with
  | stop hlast =>
      subst hplace
      obtain ⟨y, hy, hclient⟩ := hostBody_asClient hlast
      cases y with
      | inl pc' => cases hy
      | inr why =>
          cases hy
          exact ⟨why, rfl, .stop hclient⟩
  | turn hfirst _ ih =>
      subst hplace
      obtain ⟨y, hy, hclient⟩ := hostBody_asClient hfirst
      cases y with
      | inr why => cases hy
      | inl pc' =>
          cases hy
          obtain ⟨why, hwhy, hrest⟩ := ih rfl
          rw [List.filterMap_append]
          exact ⟨why, hwhy, .turn hclient hrest⟩

/-- **A worker of the server is `client_worker`.** -/
theorem server_worker_path (boot : Boot) (schedule : List Party) {cfd : Nat} {r : ThreadEnd}
    (hdone : (boot.run schedule).threads (.worker cfd) = .done r) :
    ∃ why, r = .worker why ∧ Loop.Path (clientWorker boot.cfg) (.enter (boot.payloads cfd))
      ((Pool.eventsOf (boot.run schedule).log (.worker cfd)).filterMap asClient) why := by
  have hstands := Pool.gated_stands mayStep (hostBody boot.cfg) hostHandler boot.place boot.conn boot.host schedule
    (.worker cfd)
  change Pool.Stands _ _ _ ((boot.run schedule).threads (.worker cfd)) at hstands
  rw [hdone] at hstands
  exact path_asClient hstands.path

/-! ### Before the end -/

theorem hosted_reach (cfd : Nat) (o : ServerOp) (t : List (Event HostSig)) (q : HostProc o.Ans)
    (hreach : (hosted cfd o).Reach t q) :
    t.filterMap asClient = [] ∧ (∀ ans, q ≠ .ret ans) ∨ ∃ ans, q = .ret ans ∧ t.filterMap asClient = [⟨o, ans⟩] := by
  cases o with
  | freeArg =>
      rcases Proc.reach_op_iff.mp hreach with ⟨rfl, rfl⟩ | ⟨_, _, rfl, hfree⟩
      · exact .inl ⟨rfl, fun _ hret => by cases hret⟩
      · rcases Proc.reach_op_iff.mp hfree with ⟨rfl, rfl⟩ | ⟨_, _, rfl, hret⟩
        · exact .inl ⟨rfl, fun _ hret => by cases hret⟩
        · obtain ⟨rfl, rfl⟩ := Proc.reach_ret_iff.mp hret
          exact .inr ⟨(), rfl, rfl⟩
  | _ =>
      rcases Proc.reach_op_iff.mp hreach with ⟨rfl, rfl⟩ | ⟨ans, _, rfl, hret⟩
      · exact .inl ⟨rfl, fun _ hret => by cases hret⟩
      · obtain ⟨rfl, rfl⟩ := Proc.reach_ret_iff.mp hret
        exact .inr ⟨ans, rfl, rfl⟩

theorem workerThread_reach {cfg : Config} {cfd : Nat} {pc : WorkerPc} {t : List (Event HostSig)}
    {q : HostProc (WorkerPc ⊕ ExitReason)} (hreach : (workerThread cfg cfd pc).Reach t q) :
    ∃ q', (clientWorker cfg pc).Reach (t.filterMap asClient) q' := by
  cases pc with
  | enter payload =>
      rcases Proc.reach_op_iff.mp hreach with ⟨rfl, -⟩ | ⟨_, _, rfl, hturn⟩
      · exact ⟨_, .refl _⟩
      · exact hturn.of_expand (hosted_reach cfd)
  | running l =>
      rcases hreach.bind_cases with ⟨mid, hinside⟩ | ⟨t₁, y, t₂, rfl, hturn, hrest⟩
      · exact hinside.of_expand (hosted_reach cfd)
      · refine ⟨.ret y, ?_⟩
        have hclient := (hturn.of_expand (hosted_asClient cfd)).reach
        have hread : t₂.filterMap asClient = [] := by
          cases y with
          | inl pc =>
              rcases Proc.reach_op_iff.mp hrest with ⟨rfl, -⟩ | ⟨_, _, rfl, hret⟩
              · rfl
              · obtain ⟨rfl, -⟩ := Proc.reach_ret_iff.mp hret
                rfl
          | inr why =>
              obtain ⟨rfl, -⟩ := Proc.reach_ret_iff.mp hrest
              rfl
        rwa [List.filterMap_append, hread, List.append_nil]
  | leave why => exact hreach.of_expand (hosted_reach cfd)

theorem stands_asClient {cfg : Config} {cfd : Nat} {pc : WorkerPc} {t : List (Event HostSig)}
    {th : Thread HostSig Place ThreadEnd} (hstands : Pool.Stands (hostBody cfg) (.worker cfd pc) t th) :
    ∃ th', Pool.Stands (clientWorker cfg) pc (t.filterMap asClient) th' := by
  generalize hplace : Place.worker cfd pc = place at hstands
  induction hstands generalizing pc with
  | inside hreach =>
      subst hplace
      rcases hreach.bind_cases with ⟨mid, hinside⟩ | ⟨t₁, y, t₂, rfl, hturn, hrest⟩
      · obtain ⟨q, hq⟩ := workerThread_reach hinside
        exact ⟨_, .inside hq⟩
      · obtain ⟨rfl, -⟩ := Proc.reach_ret_iff.mp hrest
        rw [List.append_nil]
        exact ⟨_, .inside (workerThread_asClient hturn).reach⟩
  | left hlast =>
      subst hplace
      obtain ⟨y, -, hclient⟩ := hostBody_asClient hlast
      exact ⟨_, .inside hclient.reach⟩
  | later hturn _ ih =>
      subst hplace
      obtain ⟨y, hy, hclient⟩ := hostBody_asClient hturn
      cases y with
      | inr why => cases hy
      | inl pc' =>
          cases hy
          obtain ⟨th', hrest⟩ := ih rfl
          rw [List.filterMap_append]
          exact ⟨th', .later hclient hrest⟩

/-- **At every moment** a worker of the server is somewhere in `client_worker`. -/
theorem server_worker_stands (boot : Boot) (schedule : List Party) (cfd : Nat) :
    ∃ th, Pool.Stands (clientWorker boot.cfg) (.enter (boot.payloads cfd))
      ((Pool.eventsOf (boot.run schedule).log (.worker cfd)).filterMap asClient) th :=
  stands_asClient (Pool.gated_stands mayStep (hostBody boot.cfg) hostHandler boot.place boot.conn boot.host schedule
    (.worker cfd))

end PulseLink
