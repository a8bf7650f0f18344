import Mlxcel.ColdStore.Gc
import Mlxcel.PromptCache.Lookup
import Mlxcel.Paged.Refinement
import Mlxcel.Speculative.Lossless
import Mlxcel.TensorParallel.HeadPairing
import Mlxcel.Transport.Delivery
import Mlxcel.Batch.Coalescing
import Mlxcel.Speculative.DraftCache
import Mlxcel.PromptCache.TriePop
import Mlxcel.PromptCache.Budgets
import Mlxcel.ColdStore.Published
import Mlxcel.Handoff.ForeignIds
import Mlxcel.Paged.Budget
import Mlxcel.ColdStore.Cleanup
import Mlxcel.ColdStore.Panics
import Mlxcel.ToolCalls.StreamFilter
import Mlxcel.ToolCalls.Reasoning
import Mlxcel.TensorParallel.Sharding
import Mlxcel.Tensor.Streamed
import Mlxcel.Pipeline.Completion
import Mlxcel.Batch.Interleave
import Mlxcel.Responses.Cancel
import Mlxcel.Batch.Preemption
import Mlxcel.ColdStore.Weights
import Mlxcel.ColdStore.Prune
import Mlxcel.ColdStore.Names
import Mlxcel.Sampling.Penalties
import Mlxcel.Disaggregated.RequestRouter
import Mlxcel.Surgery.Wildcard
