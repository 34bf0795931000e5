/-! What proofs about columns, tables and names share on attempts and lists. An attempt in several
parts succeeds if they all do, and a traversal makes of a list what it makes of each item. -/

namespace StratifiedSampling

section Attempts

/-- An attempt in two parts that succeeds does so in both. -/
theorem bind_eq_ok {program : Except ε α} {next : α → Except ε β} {result : β}
    (whole : program >>= next = .ok result) : ∃ value, program = .ok value ∧ next value = .ok result := by
  cases program with
  | error error => cases whole
  | ok value => exact ⟨value, rfl, whole⟩

/-- A check that throws when it fails has passed if the attempt goes on to succeed. -/
theorem check_eq_ok {condition : Prop} [Decidable condition] {error : ε} {next : PUnit → Except ε α} {result : α}
    (whole : (if condition then throw error >>= next else next ⟨⟩) = .ok result) :
    ¬condition ∧ next ⟨⟩ = .ok result := by
  split at whole
  · cases whole
  next passed => exact ⟨passed, whole⟩

theorem bind_eq_ok_iff {program : Except ε α} {next : α → Except ε β} {result : β} :
    program >>= next = .ok result ↔ ∃ value, program = .ok value ∧ next value = .ok result :=
  ⟨bind_eq_ok, fun ⟨_, first, second⟩ => first ▸ second⟩

theorem mapM_eq_map {items : List α} {f : α → Except ε β} {g : α → β}
    (each : ∀ item ∈ items, f item = .ok (g item)) : items.mapM f = .ok (items.map g) := by
  induction items with
  | nil => rfl
  | cons item rest ih =>
    have others := ih fun other member => each other (List.mem_cons_of_mem _ member)
    rw [List.mapM_cons, each item List.mem_cons_self, others]
    rfl

theorem mapM_of_map_some {find : α → Option β} {take : α → Except ε γ} {value : β → γ}
    (each : ∀ item found, find item = some found → take item = .ok (value found)) {items : List α}
    {chosen : List β} (listed : items.map find = chosen.map some) : items.mapM take = .ok (chosen.map value) := by
  induction items generalizing chosen with
  | nil =>
    cases chosen with
    | nil => rfl
    | cons => cases listed
  | cons item rest ih =>
    cases chosen with
    | nil => cases listed
    | cons first others =>
      obtain ⟨found, remaining⟩ := List.cons.inj listed
      rw [List.mapM_cons, each item first found, ih remaining]
      rfl

/-- A traversal that succeeds has a result for every item and no others. -/
theorem mapM_eq_ok {items : List α} {results : List β} {f : α → Except ε β}
    (whole : items.mapM f = .ok results) : (∀ item ∈ items, ∃ result, f item = .ok result) ∧
      ∀ result ∈ results, ∃ item ∈ items, f item = .ok result := by
  induction items generalizing results with
  | nil =>
    cases whole
    simp
  | cons item rest ih =>
    rw [List.mapM_cons] at whole
    obtain ⟨first, made, whole⟩ := bind_eq_ok whole
    obtain ⟨others, continued, whole⟩ := bind_eq_ok whole
    cases whole
    obtain ⟨each, known⟩ := ih continued
    refine ⟨fun other member => ?_, fun result member => ?_⟩
    · rcases List.mem_cons.mp member with rfl | member
      · exact ⟨first, made⟩
      · exact each other member
    · rcases List.mem_cons.mp member with rfl | member
      · exact ⟨item, List.mem_cons_self, made⟩
      · obtain ⟨other, listed, same⟩ := known result member
        exact ⟨other, List.mem_cons_of_mem _ listed, same⟩

/-- What a traversal makes of its items is told by what it makes of each of them. -/
theorem map_of_mapM {items : List α} {results : List β} {f : α → Except ε β} {made : β → γ}
    {expected : α → γ} (each : ∀ item result, f item = .ok result → made result = expected item)
    (whole : items.mapM f = .ok results) : results.map made = items.map expected := by
  induction items generalizing results with
  | nil =>
    cases whole
    rfl
  | cons item rest ih =>
    rw [List.mapM_cons] at whole
    obtain ⟨first, taken, whole⟩ := bind_eq_ok whole
    obtain ⟨others, continued, whole⟩ := bind_eq_ok whole
    cases whole
    rw [List.map_cons, List.map_cons, each item first taken, ih continued]

end Attempts

section Lists

theorem filterMap_of_map_some {find : α → Option β} {take : α → Option γ} {value : β → γ}
    (each : ∀ item found, find item = some found → take item = some (value found)) {items : List α}
    {chosen : List β} (listed : items.map find = chosen.map some) : items.filterMap take = chosen.map value := by
  induction items generalizing chosen with
  | nil =>
    cases chosen with
    | nil => rfl
    | cons => cases listed
  | cons item rest ih =>
    cases chosen with
    | nil => cases listed
    | cons first others =>
      obtain ⟨found, remaining⟩ := List.cons.inj listed
      rw [List.filterMap_cons_some (each item first found), ih remaining, List.map_cons]

/-- A traversal that drops nothing keeps every item at its place. -/
theorem getElem?_filterMap_of_isSome {items : List α} {f : α → Option β}
    (each : ∀ item ∈ items, (f item).isSome) (place : Nat) :
    (items.filterMap f)[place]? = items[place]?.bind f := by
  induction items generalizing place with
  | nil => simp
  | cons item rest ih =>
    obtain ⟨found, same⟩ := Option.isSome_iff_exists.mp (each item List.mem_cons_self)
    rw [List.filterMap_cons_some same]
    cases place with
    | zero => exact same.symm
    | succ place => exact ih (fun other member => each other (List.mem_cons_of_mem _ member)) place

theorem foldl_max_lt {bound : Nat} {indices : List Nat} {start : Nat} (first : start < bound)
    (inside : ∀ index ∈ indices, index < bound) : indices.foldl max start < bound := by
  induction indices generalizing start with
  | nil => exact first
  | cons index rest ih =>
    refine ih ?_ fun other member => inside other (List.mem_cons_of_mem _ member)
    have next := inside index List.mem_cons_self
    omega

theorem le_foldl_max (indices : List Nat) (start : Nat) :
    start ≤ indices.foldl max start ∧ ∀ index ∈ indices, index ≤ indices.foldl max start := by
  induction indices generalizing start with
  | nil => exact ⟨Nat.le_refl _, by simp⟩
  | cons first rest ih =>
    obtain ⟨grown, most⟩ := ih (max start first)
    rw [List.foldl_cons]
    refine ⟨by omega, fun index member => ?_⟩
    rcases List.mem_cons.mp member with rfl | member
    · omega
    · exact most index member

theorem countP_range_add (count more : Nat) (property : Nat → Bool) :
    (List.range (count + more)).countP property =
      (List.range count).countP property + (List.range more).countP fun index => property (count + index) := by
  rw [List.range_add, List.countP_append, List.countP_map]
  rfl

/-- A last item stays unless an equal one stands before it. -/
theorem eraseDups_concat {α : Type} [BEq α] [EquivBEq α] (items : List α) (last : α) :
    (items ++ [last]).eraseDups = items.eraseDups ++ if items.any (· == last) then [] else [last] := by
  match items with
  | [] => rfl
  | item :: rest =>
    have shorter : (rest.filter fun other => !other == item).length < (item :: rest).length :=
      Nat.lt_succ_of_le (List.length_filter_le _ rest)
    rw [List.cons_append, List.eraseDups_cons, List.eraseDups_cons, List.filter_append]
    by_cases same : last == item
    · simp [same, BEq.symm same]
    · have turned : (item == last) = false := by rwa [BEq.comm, ← Bool.not_eq_true]
      have kept : (rest.filter fun other => !other == item).any (· == last) = rest.any (· == last) := by
        rw [List.any_filter]
        congr 1
        funext other
        by_cases alike : other == last
        · simp [BEq.congr_left alike, same]
        · simp [alike]
      -- The induction is on the length, because the rest is filtered before it is taken up.
      have ih := eraseDups_concat (rest.filter fun other => !other == item) last
      simp [same, turned, ih, kept]
termination_by items.length
decreasing_by exact shorter

end Lists

end StratifiedSampling
