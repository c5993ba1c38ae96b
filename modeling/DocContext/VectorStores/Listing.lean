import DocContext.VectorStores.Qdrant

/-! Listing the chunks of some corpora: the pages of a scroll add up to the first
matching points, in id order. -/

namespace DocContext

open Foundation Coroutine

/-- Points in the order of a scroll. -/
abbrev InOrder (points : List Point) : Prop :=
  points.Pairwise fun first second => first.id < second.id

theorem dropWhile_before {points rest : List Point} {next : Point} {skipped : Nat}
    (ordered : InOrder points) (from' : points.drop skipped = next :: rest) :
    (points.dropWhile fun point => decide (point.id < next.id)) = points.drop skipped := by
  have split : points = points.take skipped ++ next :: rest := by
    rw [← from', List.take_append_drop]
  have before : ∀ point ∈ points.take skipped, decide (point.id < next.id) = true := by
    rw [split, InOrder, List.pairwise_append] at ordered
    exact fun point member => decide_eq_true (ordered.2.2 point member next (List.mem_cons_self ..))
  rw [from']
  conv_lhs => rw [split]
  rw [List.dropWhile_append_of_pos before, List.dropWhile_cons_of_neg]
  simp

/-- The first points are those with few points before them. -/
theorem mem_take_iff {points : List Point} (ordered : InOrder points) (limit : Nat)
    {point : Point} (member : point ∈ points) :
    point ∈ points.take limit ↔
      points.countP (fun other => decide (other.id < point.id)) < limit := by
  induction points generalizing limit with
  | nil => cases member
  | cons first rest ih =>
    obtain ⟨before, ordered⟩ := List.pairwise_cons.mp ordered
    cases limit with
    | zero => simp
    | succ limit =>
      rw [List.take_succ_cons, List.countP_cons]
      rcases List.mem_cons.mp member with same | later
      · subst same
        have none : rest.countP (fun other => decide (other.id < point.id)) = 0 := by
          rw [List.countP_eq_zero]
          intro other found less
          exact lt_asymm (before other found) (of_decide_eq_true less)
        refine iff_of_true (List.mem_cons_self ..) ?_
        rw [none, if_neg fun less => lt_irrefl _ (of_decide_eq_true less)]
        omega
      · have other : point ≠ first := by
          intro same
          subst same
          exact lt_irrefl _ (before point later)
        rw [List.mem_cons, or_iff_right other, ih ordered limit later,
          if_pos (decide_eq_true (before point later))]
        omega

/-- The `offset` a scroll has reached after some points. -/
def Reached (points : List Point) (skipped : Nat) : Option String → Prop
  | none => skipped = 0
  | some id => ∃ next rest, points.drop skipped = next :: rest ∧ id = next.id

theorem pageOf_reached {points : List Point} (ordered : InOrder points) {skipped : Nat}
    {offset : Option String} (reached : Reached points skipped offset) (limit : Nat) :
    Collection.pageOf points limit offset =
      ((points.drop skipped).take limit, (points.drop (skipped + limit)).head?.map Point.id) := by
  unfold Collection.pageOf
  cases offset with
  | none =>
    have start : skipped = 0 := reached
    subst start
    simp
  | some id =>
    obtain ⟨next, rest, from', rfl⟩ := reached
    simp only [dropWhile_before ordered from', List.drop_drop]

section Listing

variable {σ : Type} {perform : (call : Call) → σ → Except (Raised PyException) (Reply call) × σ}
  {world : σ} {points : List Point} {filter : Filter}

/-- The `while` loop comes to an exit after some calls, in a world its calls leave
as it is. -/
inductive Scrolls (perform : (call : Call) → σ → Except (Raised PyException) (Reply call) × σ)
    (world : σ) (filter : Filter) (limit page : Nat) :
    Nat → List RetrievedChunk → Option String → List RetrievedChunk → Prop where
  | full {out : List RetrievedChunk} {offset : Option String} (reached : ¬ out.length < limit) :
      Scrolls perform world filter limit page 0 out offset out
  | last {out : List RetrievedChunk} {offset : Option String} {found : List Point}
      (room : out.length < limit)
      (answered : perform (.scroll filter (min page (limit - out.length)) offset) world =
        (.ok (found, none), world)) :
      Scrolls perform world filter limit page 1 out offset
        (out ++ found.map fun point => point.retrieved (.finite 0))
  | more {out listed : List RetrievedChunk} {offset : Option String} {found : List Point}
      {next : String} {calls : Nat} (room : out.length < limit)
      (answered : perform (.scroll filter (min page (limit - out.length)) offset) world =
        (.ok (found, some next), world))
      (rest : Scrolls perform world filter limit page calls
        (out ++ found.map fun point => point.retrieved (.finite 0)) (some next) listed) :
      Scrolls perform world filter limit page (calls + 1) out offset listed

/-- The loop returns what it has at its exit. -/
theorem Scrolls.exec {limit page calls rounds : Nat} {out listed : List RetrievedChunk}
    {offset : Option String} (scrolls : Scrolls perform world filter limit page calls out offset listed)
    (enough : calls ≤ rounds) :
    (QdrantVectorStore.scrollLoop filter limit page out offset rounds).exec perform world =
      (.ok listed, world) := by
  induction scrolls generalizing rounds with
  | full reached =>
    cases rounds with
    | zero => rfl
    | succ rounds => simp [QdrantVectorStore.scrollLoop, reached]
  | last room answered =>
    cases rounds with
    | zero => omega
    | succ rounds =>
      simp [QdrantVectorStore.scrollLoop, room, exec_bind, exec_request, answered]
  | more room answered rest ih =>
    cases rounds with
    | zero => omega
    | succ rounds =>
      simp [QdrantVectorStore.scrollLoop, room, exec_bind, exec_request, answered,
        ih (Nat.le_of_succ_le_succ enough)]

theorem take_after_page (points : List Point) (skipped size left : Nat) (within : size ≤ left) :
    (points.drop skipped).take size ++ (points.drop (skipped + size)).take (left - size) =
      (points.drop skipped).take left := by
  rw [← List.drop_drop, ← List.take_add, Nat.add_sub_cancel' within]

/-- The rest of the loop lists the rest of the points, up to the limit, in one call
for each of them at most. -/
theorem scrolls_rest (ordered : InOrder points)
    (answers : ∀ limit offset, perform (.scroll filter limit offset) world =
      (.ok (Collection.pageOf points limit offset), world))
    {limit page : Nat} (positive : 0 < page) {left skipped : Nat} {out : List RetrievedChunk}
    {offset : Option String} (reached : Reached points skipped offset)
    (remaining : limit - out.length = left) :
    ∃ calls ≤ left, Scrolls perform world filter limit page calls out offset
      (out ++ ((points.drop skipped).take left).map fun point => point.retrieved (.finite 0)) := by
  induction left using Nat.strong_induction_on generalizing skipped out offset with
  | h left ih =>
    by_cases room : out.length < limit
    · have answered := answers (min page (limit - out.length)) offset
      rw [pageOf_reached ordered reached, remaining] at answered
      have size : min page left ≤ left := Nat.min_le_right ..
      have split := take_after_page points skipped (min page left) left size
      cases more : points.drop (skipped + min page left) with
      | nil =>
        rw [more] at answered split
        rw [List.take_nil, List.append_nil] at split
        rw [← split]
        exact ⟨1, by omega, .last room (by rw [remaining]; exact answered)⟩
      | cons next rest =>
        rw [more] at answered
        have long : min page left ≤ (points.drop skipped).length := by
          have some' := congrArg List.length more
          rw [List.length_drop, List.length_cons] at some'
          rw [List.length_drop]
          omega
        have grown : limit - (out ++ ((points.drop skipped).take (min page left)).map
            fun point => point.retrieved (.finite 0)).length = left - min page left := by
          rw [List.length_append, List.length_map, List.length_take, Nat.min_eq_left long]
          omega
        have onward : Reached points (skipped + min page left) (some next.id) :=
          ⟨next, rest, more, rfl⟩
        obtain ⟨calls, few, scrolls⟩ := ih _ (by omega) onward grown
        rw [List.append_assoc, ← List.map_append, split] at scrolls
        exact ⟨calls + 1, by omega, .more room (by rw [remaining]; exact answered) scrolls⟩
    · have full : left = 0 := by omega
      subst full
      refine ⟨0, Nat.le_refl 0, ?_⟩
      simpa using Scrolls.full room

/-- `list_chunks_for_corpora` lists the first matching points in id order. -/
theorem exec_listChunksForCorpora {clientId : String} {corpusIds : List String}
    (nonempty : corpusIds ≠ []) (ordered : InOrder points)
    (answers : ∀ limit offset,
      perform (.scroll (corporaFilter clientId corpusIds) limit offset) world =
        (.ok (Collection.pageOf points limit offset), world)) (limit : Int) :
    (QdrantVectorStore.listChunksForCorpora clientId corpusIds limit).exec perform world =
      (.ok ((points.take limit.toNat).map fun point => point.retrieved (.finite 0)), world) := by
  unfold QdrantVectorStore.listChunksForCorpora
  by_cases empty : limit ≤ 0
  · have zero : limit.toNat = 0 := by omega
    rw [if_pos (by simp [empty]), zero]
    rfl
  · rw [if_neg (by simp [empty, nonempty])]
    have start : Reached points 0 none := rfl
    have page : 0 < min limit.toNat 512 := by omega
    have nothing : limit.toNat - ([] : List RetrievedChunk).length = limit.toNat := Nat.sub_zero _
    obtain ⟨calls, few, scrolls⟩ := scrolls_rest ordered answers page start nothing
    simpa using scrolls.exec few

theorem exec_listChunksForCorpora_raises {clientId : String} {corpusIds : List String}
    (nonempty : corpusIds ≠ []) {raised : Raised PyException}
    (answers : ∀ limit offset,
      perform (.scroll (corporaFilter clientId corpusIds) limit offset) world =
        (.error raised, world)) {limit : Int} (positive : 0 < limit) :
    (QdrantVectorStore.listChunksForCorpora clientId corpusIds limit).exec perform world =
      (.error raised, world) := by
  unfold QdrantVectorStore.listChunksForCorpora
  rw [if_neg (by simp [positive, nonempty])]
  obtain ⟨rounds, same⟩ : ∃ rounds, limit.toNat = rounds + 1 := ⟨limit.toNat - 1, by omega⟩
  dsimp only
  have room : ([] : List RetrievedChunk).length < rounds + 1 := Nat.succ_pos rounds
  rw [same, QdrantVectorStore.scrollLoop, if_pos room, bind_eq, exec_bind, exec_request, answers]
  rfl

end Listing

end DocContext
