import PgShard.Datum
import PgShard.NodeString
import PgShard.Catalog
import PgShard.Partition
import PgShard.ShardInterval
import PgShard.Cache
import PgShard.Session
import PgShard.Placement
import PgShard.Lock
import PgShard.MetadataSync
import PgShard.Transaction
import PgShard.Cluster
