import RagSystem.CosineSimilarity
import RagSystem.DocumentModels

/-!
# The knowledge-gap map

Low-quality outcomes are clustered by the similarity of their questions, in one
greedy pass: an outcome joins the most similar cluster, or seeds a new one. At
capacity it always finds a nearest cluster, but when it is opposite to all of
them: the search starts at a similarity of -1 and takes only larger ones.
-/

namespace RagSystem.KnowledgeGap

open CosineSimilarity DocumentModels

set_option autoImplicit false

/-- `CoverageThresholds`. -/
structure CoverageThresholds where
  /-- `good_min_confidence`. -/
  goodMinConfidence : ℝ := 7 / 10
  /-- `poor_max_confidence`. -/
  poorMaxConfidence : ℝ := 4 / 10
  /-- `good_max_negative_ratio`. -/
  goodMaxNegativeRatio : ℝ := 2 / 10
  /-- `poor_min_negative_ratio`. -/
  poorMinNegativeRatio : ℝ := 5 / 10

/-- `EligibleOutcome`, what is read of it. -/
structure EligibleOutcome where
  /-- `question`. -/
  question : String
  /-- `confidence_score`. -/
  confidenceScore : Option ℝ
  /-- `negatively_rated`. -/
  negativelyRated : Bool
  /-- `document_ids`. -/
  documentIds : List String

/-- `coverage_quality`. -/
inductive CoverageQuality where
  | poor
  | fair
  | good
  deriving DecidableEq

/-- `_Cluster`. -/
structure Cluster where
  /-- `_sum`. -/
  sum : List ℝ
  /-- `members`. -/
  members : List EligibleOutcome

/-- An embedding is added to a sum, component by component; a component that the
sum does not have is an `IndexError`. -/
def addComponents : List ℝ → List ℝ → Option (List ℝ)
  | sum, [] => some sum
  | [], _ :: _ => none
  | component :: sum, v :: embedding => (addComponents sum embedding).map ((component + v) :: ·)

/-- `_Cluster.centroid`. -/
noncomputable def Cluster.centroid (cluster : Cluster) : List ℝ :=
  if cluster.members = [] then cluster.sum else cluster.sum.map (· / (cluster.members.length : ℝ))

/-- `_Cluster.add`. -/
def Cluster.add (cluster : Cluster) (outcome : EligibleOutcome) (embedding : List ℝ) : Option Cluster :=
  match cluster.sum with
  | [] => some ⟨embedding, cluster.members ++ [outcome]⟩
  | component :: sum =>
    (addComponents (component :: sum) embedding).map fun total => ⟨total, cluster.members ++ [outcome]⟩

/-- `_cluster_outcomes`, the search: a cluster is taken when it is more similar than the best one so far. -/
noncomputable def nearest (embedding : List ℝ) (clusters : List Cluster) : Option ℕ × ℝ :=
  clusters.zipIdx.foldl
    (fun best entry =>
      if best.2 < cosineSimilarity embedding entry.1.centroid then
        (some entry.2, cosineSimilarity embedding entry.1.centroid)
      else best)
    (none, -1)

/-- `_cluster_outcomes`, one outcome. -/
noncomputable def place (maxTopics : ℤ) (clusters : List Cluster) (outcome : EligibleOutcome) (embedding : List ℝ) :
    Option (List Cluster) :=
  let best := nearest embedding clusters
  let seeded := (Cluster.add ⟨[], []⟩ outcome embedding).map (clusters ++ [·])
  match best.1 with
  | some index =>
    if 3 / 4 ≤ best.2 ∨ maxTopics ≤ clusters.length then
      (clusters[index]?).bind fun cluster => (cluster.add outcome embedding).map (clusters.set index)
    else seeded
  | none => seeded

/-- `_cluster_outcomes`, from the clusters there are. -/
noncomputable def clusterOutcomes (maxTopics : ℤ) : List Cluster → List (EligibleOutcome × List ℝ) → Option (List Cluster)
  | clusters, [] => some clusters
  | clusters, (outcome, embedding) :: rest =>
    (place maxTopics clusters outcome embedding).bind fun clusters => clusterOutcomes maxTopics clusters rest

/-! ## Topics -/

/-- `_average_confidence`. -/
noncomputable def averageConfidence (members : List EligibleOutcome) : ℝ :=
  if members = [] then 0 else (members.map fun member => member.confidenceScore.getD 0).sum / members.length

/-- `_negative_ratio`. -/
noncomputable def negativeRatio (members : List EligibleOutcome) : ℝ :=
  if members = [] then 0 else ((members.filter (·.negativelyRated)).length : ℝ) / members.length

/-- `_coverage_quality`. -/
noncomputable def coverageQuality (members : List EligibleOutcome) (thresholds : CoverageThresholds) : CoverageQuality :=
  if averageConfidence members < thresholds.poorMaxConfidence ∨
      thresholds.poorMinNegativeRatio ≤ negativeRatio members then .poor
  else if thresholds.goodMinConfidence ≤ averageConfidence members ∧
      negativeRatio members ≤ thresholds.goodMaxNegativeRatio then .good
  else .fair

/-- `_representative_questions`. -/
def representativeQuestions (members : List EligibleOutcome) : List String :=
  (((members.map (·.question)).filter fun question => strip question ≠ "").eraseDups).take 5

/-- `_Topic`. -/
structure Topic where
  /-- `label`. -/
  label : String
  /-- `coverage_quality`. -/
  coverageQuality : CoverageQuality
  /-- `members`. -/
  members : List EligibleOutcome

/-- `_build_recommendations`. -/
structure Recommendations where
  /-- `recommended_missing_topics`. -/
  missingTopics : List String
  /-- `documents_needing_reingestion`. -/
  reingestion : List String
  /-- `suggested_benchmark_cases`. -/
  benchmarkCases : List String
  /-- `frequently_requested_topics`. -/
  frequentlyRequested : List String

/-- `_build_recommendations`. -/
def buildRecommendations (topics : List Topic) : Recommendations :=
  let poor := topics.filter (·.coverageQuality = .poor)
  let underCovered := (poor ++ topics.filter (·.coverageQuality = .fair)).map (·.label)
  let negatives := topics.flatMap fun topic => (topic.members.filter (·.negativelyRated)).map (·.question)
  let cases := (negatives.filter fun question => strip question ≠ "").eraseDups
  { missingTopics := if underCovered = [] then topics.map (·.label) else underCovered
    reingestion := (poor.flatMap fun topic => topic.members.flatMap (·.documentIds)).eraseDups
    benchmarkCases :=
      if cases = [] then (poor.flatMap fun topic => representativeQuestions topic.members).eraseDups else cases
    frequentlyRequested := (topics.mergeSort fun a b => b.members.length ≤ a.members.length).map (·.label) }

/-- `KnowledgeGapTopic`. -/
structure KnowledgeGapTopic where
  /-- `topic`. -/
  topic : String
  /-- `coverage_quality`. -/
  coverageQuality : CoverageQuality
  /-- `contributing_question_count`. -/
  contributingQuestionCount : ℕ

/-- `KnowledgeGapMap`. -/
structure KnowledgeGapMap where
  /-- `topics`. -/
  topics : List KnowledgeGapTopic
  /-- The recommendations. -/
  recommendations : Recommendations
  /-- `eligible_outcome_count`. -/
  eligibleOutcomeCount : ℕ
  /-- `configured_minimum`. -/
  configuredMinimum : ℤ

/-- What `generate_knowledge_gap_map` is given beside the outcomes. -/
structure Generation where
  /-- `embed_question`; none where it raises. -/
  embedQuestion : String → Option (List ℝ)
  /-- `label_cluster`; none where it raises or returns no string. -/
  labelCluster : List String → Option String
  /-- `max_topics`. -/
  maxTopics : ℤ
  /-- `min_eligible_outcomes`. -/
  minEligibleOutcomes : ℤ
  /-- `thresholds`. -/
  thresholds : CoverageThresholds

/-- The outcomes with their embeddings. -/
def embedded (g : Generation) : List EligibleOutcome → Option (List (EligibleOutcome × List ℝ))
  | [] => some []
  | outcome :: outcomes => (g.embedQuestion outcome.question).bind fun embedding =>
      (embedded g outcomes).map ((outcome, embedding) :: ·)

/-- The topics of the clusters; none when a label is blank. -/
noncomputable def assembleTopics (g : Generation) : List Cluster → Option (List Topic)
  | [] => some []
  | cluster :: clusters =>
    if cluster.members = [] then assembleTopics g clusters
    else
      (g.labelCluster (representativeQuestions cluster.members)).bind fun label =>
        if strip label = "" then none
        else (assembleTopics g clusters).map
          (⟨strip label, coverageQuality cluster.members g.thresholds, cluster.members⟩ :: ·)

/-- `generate_knowledge_gap_map`; none where it raises. -/
noncomputable def generateKnowledgeGapMap (g : Generation) (outcomes : List EligibleOutcome) : Option KnowledgeGapMap :=
  if (outcomes.length : ℤ) < g.minEligibleOutcomes then
    some ⟨[], ⟨[], [], [], []⟩, outcomes.length, g.minEligibleOutcomes⟩
  else if g.maxTopics < 1 then none
  else
    (embedded g outcomes).bind fun entries =>
      (clusterOutcomes g.maxTopics [] entries).bind fun clusters =>
        (assembleTopics g clusters).map fun topics =>
          ⟨topics.map fun topic => ⟨topic.label, topic.coverageQuality, topic.members.length⟩,
            buildRecommendations topics, outcomes.length, g.minEligibleOutcomes⟩

end RagSystem.KnowledgeGap
