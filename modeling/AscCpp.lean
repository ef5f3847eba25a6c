import AscCpp.Core.Configuration.Lookup
import AscCpp.Core.Io
import AscCpp.Core.Machine
import AscCpp.Core.Ownership
import AscCpp.Dense.Blas.Addressing
import AscCpp.Dense.Blas.RankCall
import AscCpp.Dense.Blas.TriangularMatrix
import AscCpp.Dense.Blas.MatrixProduct
import AscCpp.Dense.Blas.Reduction
import AscCpp.Dense.Ownership
import AscCpp.Dense.Reduce
import AscCpp.Dense.RotmgCorrect
import AscCpp.Dense.Subview
import AscCpp.Expression.Assignment
import AscCpp.Expression.Sparsity
import AscCpp.Expression.StoredAssignment
import AscCpp.Random.DenseFill
import AscCpp.Random.LowDiscrepancyPermutation
import AscCpp.Random.Prime
import AscCpp.Random.RadicalInverse
import AscCpp.Random.Restore
import AscCpp.Random.SobolSequence
import AscCpp.Random.SparseSearch
import AscCpp.Random.Unbiased
import AscCpp.Random.XoroshiroOrbit
import AscCpp.Sparse.Blas.GatherScatter
import AscCpp.Sparse.Blas.Product
import AscCpp.Sparse.Blas.TriangularSolve
import AscCpp.Sparse.ConversionLookup
import AscCpp.Sparse.SpmvCorrect
import AscCpp.Utilities.CommandLine.Precedence
import AscCpp.Dense.Blas.PackedOffset
import AscCpp.Core.Configuration.Utf8
import AscCpp.Utilities.CommandLine.Pointer
import AscCpp.Library.Cholesky
import AscCpp.Random.ElementAt
import AscCpp.Random.MultivariateFactor
import AscCpp.Random.DenseLatinHypercube
import AscCpp.Random.MultivariateSample
import AscCpp.Core.Cuda.CompletionRuns
import AscCpp.Random.Cuda.Words
import AscCpp.Random.Cuda.DenseKernel
import AscCpp.Random.Cuda.SparseGeneration
import AscCpp.Sparse.Cuda.Product
import AscCpp.Sparse.Cuda.TriangularSolve
import AscCpp.Sparse.Cuda.GatherScatter
