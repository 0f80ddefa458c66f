import VotingSystem.Data.Table

namespace VotingSystem.Data

/-! Reading a table page by page, each page starting after the last key of the
one before. -/

section Paging

variable {α : Type} (column : α → Int)

def page (limit : Nat) (rows : List α) (last : Int) : List α :=
  (orderBy column (rows.filter fun row => last < column row)).take limit

theorem exists_of_mem_mapM {β : Type} {f : α → Option β} {items : List α}
    {results : List β} (hresults : items.mapM f = some results) {result : β}
    (hresult : result ∈ results) : ∃ item ∈ items, f item = some result := by
  induction items generalizing results with
  | nil =>
      simp only [List.mapM_nil, Option.pure_def, Option.some.injEq] at hresults
      subst hresults
      contradiction
  | cons item items ih =>
      simp only [List.mapM_cons, Option.bind_eq_bind, Option.bind_eq_some_iff,
        Option.pure_def, Option.some.injEq] at hresults
      obtain ⟨first, hfirst, rest, hrest, rfl⟩ := hresults
      rcases List.mem_cons.mp hresult with rfl | htail
      · exact ⟨item, by simp, hfirst⟩
      · obtain ⟨other, hother, hsome⟩ := ih hrest htail
        exact ⟨other, by simp [hother], hsome⟩

theorem exists_mapM_eq_some {β : Type} {f : α → Option β} {items : List α}
    (hitems : ∀ item ∈ items, ∃ result, f item = some result) :
    ∃ results, items.mapM f = some results := by
  induction items with
  | nil => exact ⟨[], rfl⟩
  | cons item items ih =>
      obtain ⟨result, hresult⟩ := hitems item (by simp)
      obtain ⟨results, hresults⟩ := ih fun other hother => hitems other (by simp [hother])
      exact ⟨result :: results, by simp [hresult, hresults]⟩

theorem getLast?_mapM {β : Type} {f : α → Option β} {items : List α} {results : List β}
    (hresults : items.mapM f = some results) :
    results.getLast? = items.getLast?.bind f := by
  rcases List.eq_nil_or_concat items with rfl | ⟨front, item, rfl⟩
  · simp only [List.mapM_nil, Option.pure_def, Option.some.injEq] at hresults
    simp [← hresults]
  · rw [List.concat_eq_append] at hresults ⊢
    simp only [List.mapM_append, List.mapM_cons, List.mapM_nil, Option.bind_eq_bind,
      Option.bind_eq_some_iff, Option.pure_def, Option.some.injEq] at hresults
    obtain ⟨before, _, last, ⟨result, hresult, _, rfl, rfl⟩, rfl⟩ := hresults
    simp [hresult]

theorem mapM_length {β : Type} {f : α → Option β} {items : List α} {results : List β}
    (hresults : items.mapM f = some results) : results.length = items.length := by
  induction items generalizing results with
  | nil =>
      simp only [List.mapM_nil, Option.pure_def, Option.some.injEq] at hresults
      simp [← hresults]
  | cons item items ih =>
      simp only [List.mapM_cons, Option.bind_eq_bind, Option.bind_eq_some_iff,
        Option.pure_def, Option.some.injEq] at hresults
      obtain ⟨result, _, rest, hrest, rfl⟩ := hresults
      simp [ih hrest]

theorem mem_of_mem_page {limit : Nat} {rows : List α} {last : Int} {row : α}
    (hrow : row ∈ page column limit rows last) : row ∈ rows := by
  have hmem := List.mem_of_mem_take hrow
  rw [mem_orderBy] at hmem
  exact List.mem_of_mem_filter hmem

theorem page_eq_orderBy {limit : Nat} {rows : List α} {last : Int}
    (hshort : rows.length ≤ limit) (hafter : ∀ row ∈ rows, last < column row) :
    page column limit rows last = orderBy column rows := by
  have hall : rows.filter (fun row => last < column row) = rows :=
    List.filter_eq_self.mpr (by simpa using hafter)
  rw [page, hall, List.take_of_length_le (by simpa using hshort)]

/-- A page as long as the table is short of its limit and skips nothing. -/
theorem of_length_le_page {limit : Nat} {rows : List α} {last : Int}
    (hpage : rows.length ≤ (page column limit rows last).length) :
    rows.length ≤ limit ∧ ∀ row ∈ rows, last < column row := by
  rw [page, List.length_take, orderBy_length] at hpage
  have hshorter := List.length_filter_le (fun row => decide (last < column row)) rows
  refine ⟨by omega, ?_⟩
  have hall := List.length_filter_eq_length_iff.mp
    (show (rows.filter fun row => decide (last < column row)).length = rows.length by omega)
  simpa using hall

/-- Request pages until an empty one comes back; `none` when a request fails or
the fuel runs out. -/
def collectPages (fetch : Int → Option (List α)) : (fuel : Nat) → Int →
    Option (List α)
  | 0, _ => none
  | fuel + 1, last => do
      let rows ← fetch last
      match rows.getLast? with
      | none => some []
      | some row =>
          let rest ← collectPages fetch fuel (column row)
          some (rows ++ rest)

/-- Paging through messages instead of rows. -/
theorem collectPages_mapM {β : Type} {message : α → Option β} {key : β → Int}
    {valid : Int → Prop} {limit : Nat} {rows : List α}
    (hmessage : ∀ row ∈ rows, valid (column row) ∧
      ∃ result, message row = some result ∧ key result = column row)
    {fetch : Int → Option (List β)}
    (hfetch : ∀ last, valid last → fetch last = (page column limit rows last).mapM message)
    (fuel : Nat) {last : Int} (hlast : valid last) :
    collectPages key fetch fuel last =
      (collectPages column (fun last => some (page column limit rows last)) fuel last).bind
        fun collected => collected.mapM message := by
  induction fuel generalizing last with
  | zero => rfl
  | succ fuel ih =>
      have hpage : ∀ row ∈ page column limit rows last, row ∈ rows :=
        fun row hrow => mem_of_mem_page column hrow
      obtain ⟨results, hresults⟩ := exists_mapM_eq_some fun row hrow =>
        ((hmessage row (hpage row hrow)).2.imp fun _ h => h.1)
      have hend := getLast?_mapM hresults
      simp only [collectPages, hfetch last hlast, hresults, Option.bind_eq_bind,
        Option.bind_some, hend]
      cases hrow : (page column limit rows last).getLast? with
      | none => simp
      | some row =>
          obtain ⟨hvalid, result, hresult, hkey⟩ :=
            hmessage row (hpage row (List.mem_of_getLast? hrow))
          simp only [Option.bind_some, hresult, hkey, ih hvalid]
          cases collectPages column _ fuel (column row) with
          | none => rfl
          | some rest => simp [hresults]

theorem filter_after_take {limit : Nat} {ordered : List α} {row : α}
    (hordered : ordered.Pairwise fun left right => column left < column right)
    (hlast : (ordered.take limit).getLast? = some row) :
    (ordered.filter fun other => column row < column other) =
      ordered.drop limit := by
  obtain ⟨front, hfront⟩ := List.getLast?_eq_some_iff.mp hlast
  have hsplit : ordered = (front ++ [row]) ++ ordered.drop limit := by
    rw [← hfront, List.take_append_drop]
  rw [hsplit, List.pairwise_append] at hordered
  obtain ⟨hpage, -, hacross⟩ := hordered
  have hpageNone : (front ++ [row]).filter
      (fun other => column row < column other) = [] := by
    rw [List.pairwise_append] at hpage
    apply List.filter_eq_nil_iff.mpr
    intro other hother
    rcases List.mem_append.mp hother with hbefore | hself
    · have := hpage.2.2 other hbefore row (by simp)
      simp only [decide_eq_true_eq]
      omega
    · rw [List.mem_singleton.mp hself]
      simp
  have hrestAll : (ordered.drop limit).filter
      (fun other => column row < column other) = ordered.drop limit := by
    apply List.filter_eq_self.mpr
    intro other hother
    have := hacross row (by simp) other hother
    simpa using this
  conv_lhs => rw [hsplit]
  rw [List.filter_append, hpageNone, hrestAll, List.nil_append]

theorem filter_lt_filter_lt {rows : List α} {last : Int} {row : α}
    (hrow : last < column row) :
    (rows.filter fun other => column row < column other) =
      (rows.filter fun other => last < column other).filter
        fun other => column row < column other := by
  rw [List.filter_filter]
  apply List.filter_congr
  intro other _
  by_cases h : column row < column other
  · have : last < column other := by omega
    simp [h, this]
  · simp [h]

/-- Paging through unchanging rows enumerates those after `last` once each, in
increasing order. -/
theorem collectPages_page {limit : Nat} (hlimit : 0 < limit) {rows : List α}
    (hnodup : (rows.map column).Nodup) (last : Int) {fuel : Nat}
    (hfuel : (rows.filter fun row => last < column row).length < fuel) :
    collectPages column (fun last => some (page column limit rows last)) fuel last =
      some (orderBy column (rows.filter fun row => last < column row)) := by
  induction fuel generalizing last with
  | zero => omega
  | succ fuel ih =>
      have hkeys : ((rows.filter fun row => last < column row).map column).Nodup :=
        hnodup.sublist (List.filter_sublist.map column)
      have hordered := orderBy_pairwise_lt column hkeys
      simp only [collectPages, Option.bind_eq_bind, Option.bind_some]
      cases hlast : (page column limit rows last).getLast? with
      | none =>
          have hnone : page column limit rows last = [] :=
            List.getLast?_eq_none_iff.mp hlast
          have hempty : orderBy column (rows.filter fun row => last < column row) = [] := by
            rcases List.take_eq_nil_iff.mp hnone with hzero | hnil
            · omega
            · exact hnil
          simp [hempty]
      | some row =>
          have hmem : row ∈ page column limit rows last :=
            List.mem_of_getLast? hlast
          have hafter : last < column row := by
            have := List.mem_of_mem_take hmem
            rw [mem_orderBy, List.mem_filter] at this
            simpa using this.2
          have hrest := filter_after_take column hordered hlast
          have hremaining :
              orderBy column (rows.filter fun other => column row < column other) =
                (orderBy column (rows.filter fun row => last < column row)).drop limit := by
            rw [filter_lt_filter_lt column hafter, orderBy_filter column _ hkeys, hrest]
          have hshorter :
              (rows.filter fun other => column row < column other).length < fuel := by
            have hlength := congrArg List.length hremaining
            have hpositive : 0 < (page column limit rows last).length :=
              List.length_pos_of_mem hmem
            simp only [page, List.length_take, orderBy_length, List.length_drop]
              at hlength hpositive
            omega
          simp only [ih (column row) hshorter, Option.bind_some]
          rw [hremaining, page, List.take_append_drop]

end Paging

end VotingSystem.Data
