import MqStudio.Lib.Attempts
import MqStudio.Lib.Errors
import MqStudio.Lib.Text

/-!
# Deleting a RocketMQ topic

`DeleteTopic` of `topic_mutation.go`: where no cluster is named, the clusters of the topic's route
are tried, or else those of the registry, until one of them deletes it.

* `deleteTopic`: the call, with the answers of the name servers and what becomes of each delete.
* `Right`: a topic that is reported deleted is on no cluster its route listed, whatever the order
  the clusters are walked in.
* `deleteTopic_right_iff`: it is exactly if a delete that succeeds leaves nothing to the others.
-/

namespace MqStudio.Rocketmq.TopicRemoval

open Lib.Attempts Lib.Errors Lib.Text

/-! ### The call -/

/-- The clusters behind the name servers.  A route lists brokers, each of a cluster, with nils among
them; the registry's names come in the order of a walk over a map. -/
structure World where
  route : Except Error (Option (List (Option String)))
  registry : Except Error (Option (List String))
  holds : String → Bool
  deletes : String → Attempt Error

/-- The clusters a route lists. -/
def World.routeNames (w : World) : List String :=
  match w.route with
  | .ok (some brokers) => brokers.filterMap id
  | _ => []

def World.registryNames (w : World) : List String :=
  match w.registry with
  | .ok (some names) => names
  | _ => []

def appendCluster (candidates : List String) (name : String) : List String :=
  if trimSpace name = "" ∨ trimSpace name ∈ candidates then candidates
  else candidates ++ [trimSpace name]

/-- The name the pages show where they know no cluster. -/
def defaultCluster : String := "默认集群"

def clusterCandidates (w : World) (clusterName : String) : List String :=
  let named := if trimSpace clusterName ≠ "" ∧ trimSpace clusterName ≠ defaultCluster then
    appendCluster [] clusterName else []
  let routed := w.routeNames.foldl appendCluster named
  if routed = [] then w.registryNames.foldl appendCluster [] else routed

def failure (candidates : List String) : Option Error → Error
  | some lastErr =>
    .wrap ("删除 Topic 失败: 已尝试集群 " ++ ", ".intercalate candidates ++ "，最后错误") lastErr
  | none => .new ("删除 Topic 失败: 未能在集群 " ++ ", ".intercalate candidates ++ " 中删除")

/-- Which clusters hold the topic afterwards, and the error.  A delete that reports the topic as
missing, and one that fails in any other way, both go on to the next cluster. -/
def deleteTopic (w : World) (topicName clusterName : String) : (String → Bool) × Option Error :=
  if trimSpace topicName = "" then (w.holds, some (.new "删除 Topic 失败: Topic 名称不能为空"))
  else
    match clusterCandidates w clusterName with
    | [] => (w.holds, some (.new "删除 Topic 失败: 未找到可用集群，请先检查连接状态"))
    | candidates =>
      let walked := untilFirst w.deletes candidates w.holds none
      match walked.2 with
      | .ok () => (walked.1, none)
      | .error last => (walked.1, some (failure candidates last))

/-! ### What it should do -/

/-- The same world, whose clusters are walked in another order. -/
structure Reordered (w w' : World) : Prop where
  holds : w'.holds = w.holds
  deletes : w'.deletes = w.deletes
  route : w'.route = w.route ∨ ∃ brokers brokers', w.route = .ok (some brokers) ∧
    w'.route = .ok (some brokers') ∧ brokers.Perm brokers'
  registry : w'.registry = w.registry ∨ ∃ names names', w.registry = .ok (some names) ∧
    w'.registry = .ok (some names') ∧ names.Perm names'

/-- The clusters the topic should be gone from: those of its route, or of the registry where there
is no route. -/
def Listed (w : World) (cluster : String) : Prop :=
  match w.route with
  | .ok (some _) => cluster ∈ w.routeNames
  | _ => cluster ∈ w.registryNames

/-- In every order a topic that is reported deleted is gone, and all orders have one outcome. -/
structure Right (w : World) (topicName clusterName : String) : Prop where
  gone : ∀ w', Reordered w w' → (deleteTopic w' topicName clusterName).2 = none →
    ∀ cluster, Listed w cluster → (deleteTopic w' topicName clusterName).1 cluster = false
  free : ∀ w' w'', Reordered w w' → Reordered w w'' →
    ((deleteTopic w' topicName clusterName).2 = none ↔
      (deleteTopic w'' topicName clusterName).2 = none) ∧
    (deleteTopic w' topicName clusterName).1 = (deleteTopic w'' topicName clusterName).1

/-- A delete that succeeds leaves nothing to the others: no other cluster that is listed holds the
topic, and no other attempt takes it from a cluster. -/
def Sole (w : World) (clusterName : String) : Prop :=
  ∀ k ∈ clusterCandidates w clusterName, (w.deletes k).err = none →
    (∀ cluster, Listed w cluster → cluster ≠ k → w.holds cluster = false) ∧
      ∀ cluster ∈ clusterCandidates w clusterName, cluster ≠ k → w.holds cluster = true →
        (w.deletes cluster).gone = false

/-! ### The candidates -/

section Candidates

variable {l l' acc : List String} {c : String}

theorem mem_foldl_appendCluster : c ∈ l.foldl appendCluster acc ↔
    c ∈ acc ∨ ∃ name ∈ l, trimSpace name = c ∧ c ≠ "" := by
  induction l generalizing acc with
  | nil => simp
  | cons name l ih =>
    have hone : c ∈ appendCluster acc name ↔ c ∈ acc ∨ trimSpace name = c ∧ c ≠ "" := by
      rw [appendCluster]
      split
      · rename_i hskip
        refine ⟨.inl, fun h => h.elim id ?_⟩
        rintro ⟨rfl, hne⟩
        exact hskip.resolve_left hne
      · rename_i hnew
        rw [List.mem_append, List.mem_singleton]
        refine or_congr_right ⟨?_, fun h => h.1.symm⟩
        rintro rfl
        exact ⟨rfl, fun he => hnew (.inl he)⟩
    rw [List.foldl_cons, ih, hone, List.exists_mem_cons_iff, or_assoc]

theorem nodup_foldl_appendCluster (h : acc.Nodup) : (l.foldl appendCluster acc).Nodup := by
  induction l generalizing acc with
  | nil => exact h
  | cons name l ih =>
    refine ih ?_
    rw [appendCluster]
    split
    · exact h
    · rename_i hnew
      refine List.nodup_append.mpr ⟨h, List.nodup_singleton _, fun a ha b hb => ?_⟩
      rw [List.mem_singleton.mp hb]
      rintro rfl
      exact hnew (.inr ha)

theorem prefix_foldl_appendCluster : acc <+: l.foldl appendCluster acc := by
  induction l generalizing acc with
  | nil => exact List.prefix_rfl
  | cons name l ih =>
    refine List.IsPrefix.trans ?_ ih
    rw [appendCluster]
    split
    · exact List.prefix_rfl
    · exact List.prefix_append _ _

/-- The order of the names is all that their order decides. -/
theorem foldl_appendCluster_perm (h : l.Perm l') :
    (l.foldl appendCluster []).Perm (l'.foldl appendCluster []) := by
  refine (List.perm_ext_iff_of_nodup (nodup_foldl_appendCluster List.nodup_nil)
    (nodup_foldl_appendCluster List.nodup_nil)).mpr fun c => ?_
  rw [mem_foldl_appendCluster, mem_foldl_appendCluster]
  exact or_congr_right (exists_congr fun name => and_congr_left fun _ => h.mem_iff)

/-- A candidate is the first one where a name for it is. -/
theorem foldl_appendCluster_first {name : String} (h : trimSpace name = c) (hne : c ≠ "") :
    ∃ rest, (name :: l).foldl appendCluster [] = c :: rest := by
  have hfirst : appendCluster [] name = [c] := by
    rw [appendCluster, h, if_neg (by simp [hne])]
    rfl
  obtain ⟨rest, hrest⟩ := @prefix_foldl_appendCluster l [c]
  exact ⟨rest, by rw [List.foldl_cons, hfirst, ← hrest]; rfl⟩

end Candidates

/-- No particular cluster is named. -/
def Unnamed (clusterName : String) : Prop :=
  trimSpace clusterName = "" ∨ trimSpace clusterName = defaultCluster

section Walks

variable {w w' : World} {topicName clusterName : String}

theorem clusterCandidates_eq (h : Unnamed clusterName) : clusterCandidates w clusterName =
    if w.routeNames.foldl appendCluster [] = [] then w.registryNames.foldl appendCluster []
    else w.routeNames.foldl appendCluster [] := by
  have hnot : ¬(trimSpace clusterName ≠ "" ∧ trimSpace clusterName ≠ defaultCluster) :=
    fun hne => h.elim hne.1 hne.2
  rw [clusterCandidates, if_neg hnot]

theorem Reordered.refl (w : World) : Reordered w w := ⟨rfl, rfl, .inl rfl, .inl rfl⟩

theorem Reordered.routeNames (h : Reordered w w') : w.routeNames.Perm w'.routeNames := by
  rcases h.route with heq | ⟨brokers, brokers', heq, heq', hperm⟩
  · rw [World.routeNames, World.routeNames, heq]
  · rw [World.routeNames, World.routeNames, heq, heq']
    exact hperm.filterMap _

theorem Reordered.registryNames (h : Reordered w w') :
    w.registryNames.Perm w'.registryNames := by
  rcases h.registry with heq | ⟨names, names', heq, heq', hperm⟩
  · rw [World.registryNames, World.registryNames, heq]
  · rw [World.registryNames, World.registryNames, heq, heq']
    exact hperm

theorem Reordered.candidates (h : Reordered w w') (hunnamed : Unnamed clusterName) :
    (clusterCandidates w clusterName).Perm (clusterCandidates w' clusterName) := by
  have hroute := foldl_appendCluster_perm h.routeNames
  have hempty : w.routeNames.foldl appendCluster [] = [] ↔
      w'.routeNames.foldl appendCluster [] = [] := by
    rw [← List.length_eq_zero_iff, ← List.length_eq_zero_iff, hroute.length_eq]
  rw [clusterCandidates_eq hunnamed, clusterCandidates_eq hunnamed]
  by_cases he : w.routeNames.foldl appendCluster [] = []
  · rw [if_pos he, if_pos (hempty.mp he)]
    exact foldl_appendCluster_perm h.registryNames
  · rw [if_neg he, if_neg (he ∘ hempty.mpr)]
    exact hroute

/-- Each candidate is the first one of some walk. -/
theorem exists_reordered_first {c : String} (hunnamed : Unnamed clusterName)
    (hc : c ∈ clusterCandidates w clusterName) :
    ∃ w' rest, Reordered w w' ∧ clusterCandidates w' clusterName = c :: rest := by
  rw [clusterCandidates_eq hunnamed] at hc
  by_cases he : w.routeNames.foldl appendCluster [] = []
  · rw [if_pos he] at hc
    obtain ⟨name, hname, htrim, hne⟩ :=
      (mem_foldl_appendCluster.mp hc).resolve_left List.not_mem_nil
    rw [World.registryNames] at hname
    split at hname
    · rename_i names hnames
      obtain ⟨rest, hrest⟩ := @foldl_appendCluster_first (names.erase name) c name htrim hne
      refine ⟨{ w with registry := .ok (some (name :: names.erase name)) }, rest,
        ⟨rfl, rfl, .inl rfl, .inr ⟨names, _, hnames, rfl, List.perm_cons_erase hname⟩⟩, ?_⟩
      rw [clusterCandidates_eq hunnamed]
      exact (if_pos he).trans hrest
    · cases hname
  · rw [if_neg he] at hc
    obtain ⟨name, hname, htrim, hne⟩ :=
      (mem_foldl_appendCluster.mp hc).resolve_left List.not_mem_nil
    rw [World.routeNames] at hname
    split at hname
    · rename_i brokers hbrokers
      have hmem : some name ∈ brokers := by simpa using hname
      obtain ⟨rest, hrest⟩ := @foldl_appendCluster_first ((brokers.erase (some name)).filterMap id)
        c name htrim hne
      refine ⟨{ w with route := .ok (some (some name :: brokers.erase (some name))) }, rest,
        ⟨rfl, rfl, .inr ⟨brokers, _, hbrokers, rfl, List.perm_cons_erase hmem⟩, .inl rfl⟩, ?_⟩
      rw [clusterCandidates_eq hunnamed]
      exact (if_neg (by
        show (name :: (brokers.erase (some name)).filterMap id).foldl appendCluster [] ≠ []
        rw [hrest]
        exact List.cons_ne_nil _ _)).trans hrest
    · cases hname

/-- The orders the clusters of a world may be walked in. -/
def Walk (w : World) (clusterName : String) (ks : List String) : Prop :=
  ∃ w', Reordered w w' ∧ clusterCandidates w' clusterName = ks

theorem orders_walk (w : World) (hunnamed : Unnamed clusterName) : Orders (Walk w clusterName) where
  nodup := by
    rintro ks ⟨w', -, rfl⟩
    rw [clusterCandidates_eq hunnamed]
    split <;> exact nodup_foldl_appendCluster List.nodup_nil
  perm := by
    rintro ks ks' ⟨w', h', rfl⟩ ⟨w'', h'', rfl⟩
    exact (h'.candidates hunnamed).symm.trans (h''.candidates hunnamed)
  first := by
    rintro ks k ⟨w', h', rfl⟩ hk
    obtain ⟨w'', rest, h'', heq⟩ :=
      exists_reordered_first hunnamed ((h'.candidates hunnamed).mem_iff.mpr hk)
    exact ⟨rest, w'', h'', heq⟩

/-! ### When a delete is right -/

theorem deleteTopic_fst (htopic : trimSpace topicName ≠ "") :
    (deleteTopic w topicName clusterName).1 =
      (untilFirst w.deletes (clusterCandidates w clusterName) w.holds none).1 := by
  rw [deleteTopic, if_neg htopic]
  split
  · rename_i hnil
    rw [hnil]
    rfl
  · dsimp only
    split <;> rfl

theorem deleteTopic_none_iff (htopic : trimSpace topicName ≠ "") :
    (deleteTopic w topicName clusterName).2 = none ↔
      (untilFirst w.deletes (clusterCandidates w clusterName) w.holds none).2 = .ok () := by
  rw [deleteTopic, if_neg htopic]
  split
  · rename_i hnil
    rw [hnil]
    exact iff_of_false (Option.some_ne_none _) (nomatch ·)
  · dsimp only
    split
    · rename_i hok
      exact iff_of_true rfl hok
    · rename_i hfails
      rw [hfails]
      exact iff_of_false (Option.some_ne_none _) (nomatch ·)

/-- What is right of the walks of a world is right of its walk in every order. -/
theorem right_iff_walks (htopic : trimSpace topicName ≠ "") : Right w topicName clusterName ↔
    (∀ ks, Walk w clusterName ks → (untilFirst w.deletes ks w.holds none).2 = .ok () →
      ∀ c, Listed w c → (untilFirst w.deletes ks w.holds none).1 c = false) ∧
    ∀ ks ks', Walk w clusterName ks → Walk w clusterName ks' →
      ((untilFirst w.deletes ks w.holds none).2 = .ok () ↔
        (untilFirst w.deletes ks' w.holds none).2 = .ok ()) ∧
      (untilFirst w.deletes ks w.holds none).1 = (untilFirst w.deletes ks' w.holds none).1 := by
  have hnone : ∀ w', Reordered w w' → ((deleteTopic w' topicName clusterName).2 = none ↔
      (untilFirst w.deletes (clusterCandidates w' clusterName) w.holds none).2 = .ok ()) :=
    fun w' h => by rw [deleteTopic_none_iff htopic, h.holds, h.deletes]
  have hfst : ∀ w', Reordered w w' → (deleteTopic w' topicName clusterName).1 =
      (untilFirst w.deletes (clusterCandidates w' clusterName) w.holds none).1 :=
    fun w' h => by rw [deleteTopic_fst htopic, h.holds, h.deletes]
  constructor
  · rintro ⟨hgone, hfree⟩
    refine ⟨?_, ?_⟩
    · rintro ks ⟨w', h', rfl⟩ hok c hc
      rw [← hfst w' h']
      exact hgone w' h' ((hnone w' h').mpr hok) c hc
    · rintro ks ks' ⟨w', h', rfl⟩ ⟨w'', h'', rfl⟩
      rw [← hfst w' h', ← hfst w'' h'', ← hnone w' h', ← hnone w'' h'']
      exact hfree w' w'' h' h''
  · rintro ⟨hgone, hfree⟩
    refine ⟨fun w' h' hok c hc => ?_, fun w' w'' h' h'' => ?_⟩
    · rw [hfst w' h']
      exact hgone _ ⟨w', h', rfl⟩ ((hnone w' h').mp hok) c hc
    · rw [hnone w' h', hnone w'' h'', hfst w' h', hfst w'' h'']
      exact hfree _ _ ⟨w', h', rfl⟩ ⟨w'', h'', rfl⟩

/-- A condition on the candidates of every order is one on those of this order. -/
theorem forall_walk_iff (hunnamed : Unnamed clusterName) {p : List String → String → Prop}
    (hp : ∀ ks ks' k, ks.Perm ks' → p ks k → p ks' k) :
    (∀ ks, Walk w clusterName ks → ∀ k ∈ ks, p ks k) ↔
      ∀ k ∈ clusterCandidates w clusterName, p (clusterCandidates w clusterName) k := by
  constructor
  · exact fun h => h _ ⟨w, .refl w, rfl⟩
  · rintro h ks ⟨w', h', rfl⟩ k hk
    have hperm := h'.candidates hunnamed
    exact hp _ _ k hperm (h k (hperm.mem_iff.mpr hk))

theorem right_iff_sole (hunnamed : Unnamed clusterName) (htopic : trimSpace topicName ≠ "") :
    Right w topicName clusterName ↔ Sole w clusterName := by
  have horders := orders_walk w hunnamed
  have halone : (∀ ks, Walk w clusterName ks → Alone w.deletes w.holds ks) ↔ _ :=
    forall_walk_iff hunnamed fun ks ks' k hperm h hnone c hc =>
      h hnone c (hperm.mem_iff.mpr hc)
  rw [right_iff_walks htopic, gone_iff horders (Listed w),
    forall_walk_iff hunnamed (p := fun _ k => (w.deletes k).err = none →
      ∀ c, Listed w c → c ≠ k → w.holds c = false) fun _ _ _ _ h => h]
  constructor
  · rintro ⟨hgone, hfree⟩ k hk hnone
    have hstays := halone.mp ((free_iff horders).mp fun ks ks' h h' => (hfree ks ks' h h').2)
    exact ⟨hgone k hk hnone, hstays k hk hnone⟩
  · intro hsole
    refine ⟨fun k hk hnone => (hsole k hk hnone).1, fun ks ks' h h' => ⟨ok_congr horders h h', ?_⟩⟩
    exact (free_iff horders).mpr (halone.mpr fun k hk hnone => (hsole k hk hnone).2) ks ks' h h'

end Walks

/-- **A topic that is reported deleted is gone** in every order of its clusters exactly if the
cluster whose delete succeeds is the only one there was work for. -/
theorem deleteTopic_right_iff (w : World) (topicName clusterName : String)
    (hunnamed : trimSpace clusterName = "" ∨ trimSpace clusterName = defaultCluster) :
    Right w topicName clusterName ↔ (trimSpace topicName ≠ "" → Sole w clusterName) := by
  by_cases htopic : trimSpace topicName = ""
  · refine iff_of_true ⟨fun w' _ hnone => ?_, fun w' w'' h' h'' => ?_⟩ fun hne => absurd htopic hne
    · rw [deleteTopic, if_pos htopic] at hnone
      cases hnone
    · rw [deleteTopic, deleteTopic, if_pos htopic, if_pos htopic, h'.holds, h''.holds]
      exact ⟨Iff.rfl, rfl⟩
  · rw [right_iff_sole hunnamed htopic]
    exact ⟨fun h _ => h, fun h => h htopic⟩

/-- A delete that succeeds. -/
def deleted : Attempt Error := ⟨none, true, fun _ => rfl⟩

/-- A topic on one cluster. -/
def oneCluster : World where
  route := .ok (some [some "east"])
  registry := .error (.external "timeout")
  holds c := c = "east"
  deletes _ := deleted

theorem one_cluster_right : Right oneCluster "orders" "" := by
  refine (deleteTopic_right_iff oneCluster "orders" "" (.inl rfl)).mpr fun _ => ?_
  have hcandidates : clusterCandidates oneCluster "" = ["east"] := by decide
  intro k hk _
  rw [hcandidates, List.mem_singleton] at hk
  subst hk
  refine ⟨fun c _ hne => by simpa [oneCluster] using hne, fun c hc hne => ?_⟩
  rw [hcandidates, List.mem_singleton] at hc
  exact absurd hc hne

/-- A topic on two clusters that its route lists. -/
def twoClusters : World where
  route := .ok (some [some "east", some "west"])
  registry := .error (.external "timeout")
  holds c := c = "east" ∨ c = "west"
  deletes _ := deleted

/-- It is reported deleted, and is still on the second. -/
theorem second_still_holds : ¬Right twoClusters "orders" "" := by
  intro hright
  have hsole := (right_iff_sole (.inl rfl) (by decide)).mp hright
  have hfirst : "east" ∈ clusterCandidates twoClusters "" := by decide
  have hlisted : "west" ∈ twoClusters.routeNames := by decide
  have hgone := (hsole "east" hfirst rfl).1 "west" hlisted (by decide)
  revert hgone
  decide


end MqStudio.Rocketmq.TopicRemoval
