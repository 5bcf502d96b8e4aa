import SpiderNet.Fetch.RunParts

namespace SpiderNet.Fetch
open Transition Tiling

structure FetchOptions where
  exits : List ExitSpec
  segmentsPerExit : SegmentsPerExit
  minSegment : MinSegmentBytes
  expectedSha256 : Option Sha256Digest
  retries : RetryPolicy

structure SegmentStats where
  index : SegmentIndex
  bytes : Nat
  duration : Nat

def SegmentAttemptStats.toStats (stats : SegmentAttemptStats) : SegmentStats :=
  ⟨stats.index, stats.bytes, stats.duration⟩

structure FetchReport where
  url : TargetUrl
  fileSize : FileSize
  segments : List SegmentStats
  sha256 : Option Sha256Digest

def rangedConfig (options : FetchOptions) (exits : ExitRegistry)
    (network : ExitId → SegmentPlan → Reply → Prop) (plan : FetchPlan) : Config :=
  ⟨plan.segments, exits, options.retries, network⟩

-- `run_ranged` from `run_segments_with_policy` on; the output path is outside the parts directory
def finishRanged (sha256 : Bytes → Sha256Digest) (io : Faults) (target : TargetUrl)
    (options : FetchOptions) (fileSize : FileSize) (stats : List SegmentAttemptStats) (parts : Dir)
    (listing : List FileName) (output : Option Bytes) : Except FetchError FetchReport × Option Bytes :=
  let (result, output) := assemble sha256 io parts listing output fileSize options.expectedSha256
  (result.map fun digest => ⟨target, fileSize, stats.map (·.toStats), some digest⟩, output)

end SpiderNet.Fetch
