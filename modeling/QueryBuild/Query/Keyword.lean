import QueryBuild.Text.Blank
import QueryBuild.Text.Case
/-!
# Keywords

The words with a meaning of their own, and those of them that end an item instead of naming it.
-/

namespace QueryBuild.Query.Keyword

def allText : String :=
  "ABORT ABS ABSENT ABSOLUTE ACCESS ACCOUNT ACTION ADD ADMIN AFTER AGAINST AGGREGATE " ++
  "AGGREGATION ALERT ALGORITHM ALIAS ALL ALLOCATE ALTER ALWAYS ANALYZE AND ANTI ANY " ++
  "APPLICATION APPLY ARCHIVE ARE ARRAY ARRAY_MAX_CARDINALITY AS ASC ASENSITIVE ASOF ASSERT " ++
  "ASYMMETRIC AT ATOMIC ATTACH AUDIT AUTHENTICATION AUTHORIZATION AUTO AUTOINCREMENT " ++
  "AUTO_INCREMENT AVG AVRO BACKWARD BASE64 BASE_LOCATION BEFORE BEGIN BEGIN_FRAME " ++
  "BEGIN_PARTITION BETWEEN BIGDECIMAL BIGINT BIGNUMERIC BINARY BIND BINDING BIT BLOB " ++
  "BLOOMFILTER BOOL BOOLEAN BOTH BROWSE BTREE BUCKET BUCKETS BY BYPASSRLS BYTEA BYTES CACHE " ++
  "CALL CALLED CARDINALITY CASCADE CASCADED CASE CASES CAST CATALOG CATALOG_SYNC CEIL CEILING " ++
  "CENTURY CHAIN CHANGE CHANGE_TRACKING CHANNEL CHAR CHARACTER CHARACTERS CHARACTER_LENGTH " ++
  "CHARSET CHAR_LENGTH CHECK CLOB CLONE CLOSE CLUSTER CLUSTERED CLUSTERING COALESCE COLLATE " ++
  "COLLATION COLLECT COLLECTION COLUMN COLUMNS COLUMNSTORE COMMENT COMMIT COMMITTED " ++
  "COMPRESSION COMPUTE CONCURRENTLY CONDITION CONFLICT CONNECT CONNECTION CONSTRAINT CONTAINS " ++
  "CONTINUE CONVERT COPY COPY_OPTIONS CORR CORRESPONDING COUNT COVAR_POP COVAR_SAMP CREATE " ++
  "CREATEDB CREATEROLE CREDENTIALS CROSS CSV CUBE CUME_DIST CURRENT CURRENT_CATALOG " ++
  "CURRENT_DATE CURRENT_DEFAULT_TRANSFORM_GROUP CURRENT_PATH CURRENT_ROLE CURRENT_ROW " ++
  "CURRENT_SCHEMA CURRENT_TIME CURRENT_TIMESTAMP CURRENT_TRANSFORM_GROUP_FOR_TYPE " ++
  "CURRENT_USER CURSOR CYCLE DATA DATABASE DATABASES DATA_RETENTION_TIME_IN_DAYS DATE DATE32 " ++
  "DATETIME DATETIME64 DAY DAYOFWEEK DAYOFYEAR DEALLOCATE DEC DECADE DECIMAL DECLARE " ++
  "DEDUPLICATE DEFAULT DEFAULT_DDL_COLLATION DEFERRABLE DEFERRED DEFINE DEFINED DEFINER " ++
  "DELAYED DELETE DELIMITED DELIMITER DELTA DENSE_RANK DEREF DESC DESCRIBE DETACH DETAIL " ++
  "DETERMINISTIC DIRECTORY DISABLE DISCARD DISCONNECT DISTINCT DISTRIBUTE DIV DO DOUBLE DOW " ++
  "DOY DROP DRY DUPLICATE DYNAMIC EACH ELEMENT ELEMENTS ELSE EMPTY ENABLE " ++
  "ENABLE_SCHEMA_EVOLUTION ENCODING ENCRYPTION END END-EXEC ENDPOINT END_FRAME END_PARTITION " ++
  "ENFORCED ENGINE ENUM ENUM16 ENUM8 EPHEMERAL EPOCH EQUALS ERROR ESCAPE ESCAPED ESTIMATE " ++
  "EVENT EVERY EVOLVE EXCEPT EXCEPTION EXCHANGE EXCLUDE EXCLUSIVE EXEC EXECUTE EXECUTION " ++
  "EXISTS EXP EXPANSION EXPLAIN EXPLICIT EXPORT EXTENDED EXTENSION EXTERNAL EXTERNAL_VOLUME " ++
  "EXTRACT FAIL FAILOVER FALSE FETCH FIELDS FILE FILES FILE_FORMAT FILL FILTER FINAL FIRST " ++
  "FIRST_VALUE FIXEDSTRING FLOAT FLOAT32 FLOAT4 FLOAT64 FLOAT8 FLOOR FLUSH FN FOLLOWING FOR " ++
  "FORCE FORCE_NOT_NULL FORCE_NULL FORCE_QUOTE FOREIGN FORMAT FORMATTED FORWARD FRAME_ROW " ++
  "FREE FREEZE FROM FSCK FULFILLMENT FULL FULLTEXT FUNCTION FUNCTIONS FUSION GENERAL GENERATE " ++
  "GENERATED GEOGRAPHY GET GLOBAL GRANT GRANTED GRANTS GRAPHVIZ GROUP GROUPING GROUPS HASH " ++
  "HAVING HEADER HEAP HIGH_PRIORITY HISTORY HIVEVAR HOLD HOSTS HOUR IDENTITY IDENTITY_INSERT " ++
  "IF IGNORE ILIKE IMMEDIATE IMMUTABLE IMPORTED IN INCLUDE INCLUDE_NULL_VALUES INCREMENT " ++
  "INDEX INDICATOR INHERIT INITIALLY INNER INOUT INPATH INPUT INPUTFORMAT INSENSITIVE INSERT " ++
  "INSTALL INSTEAD INT INT128 INT16 INT2 INT256 INT32 INT4 INT64 INT8 INTEGER INTEGRATION " ++
  "INTERPOLATE INTERSECT INTERSECTION INTERVAL INTO INVOKER IO IS ISODOW ISOLATION ISOWEEK " ++
  "ISOYEAR ITEMS JAR JOIN JSON JSONB JSONFILE JSON_TABLE JULIAN KEY KEYS KILL LAG LANGUAGE " ++
  "LARGE LAST LAST_VALUE LATERAL LEAD LEADING LEFT LEVEL LIKE LIKE_REGEX LIMIT LINES LIST " ++
  "LISTEN LN LOAD LOCAL LOCALTIME LOCALTIMESTAMP LOCATION LOCK LOCKED LOGIN LOGS LONGBLOB " ++
  "LONGTEXT LOWCARDINALITY LOWER LOW_PRIORITY MACRO MANAGE MANAGED MANAGEDLOCATION MAP " ++
  "MASKING MATCH MATCHED MATCHES MATCH_CONDITION MATCH_RECOGNIZE MATERIALIZED MAX MAXVALUE " ++
  "MAX_DATA_EXTENSION_TIME_IN_DAYS MEASURES MEDIUMBLOB MEDIUMINT MEDIUMTEXT MEMBER MERGE " ++
  "METADATA METHOD METRIC MICROSECOND MICROSECONDS MILLENIUM MILLENNIUM MILLISECOND " ++
  "MILLISECONDS MIN MINUTE MINVALUE MOD MODE MODIFIES MODIFY MODULE MONITOR MONTH MSCK " ++
  "MULTISET MUTATION NAME NANOSECOND NANOSECONDS NATIONAL NATURAL NCHAR NCLOB NESTED NEW NEXT " ++
  "NO NOBYPASSRLS NOCREATEDB NOCREATEROLE NOINHERIT NOLOGIN NONE NOORDER NOREPLICATION " ++
  "NORMALIZE NOSCAN NOSUPERUSER NOT NOTHING NOTIFY NOWAIT NO_WRITE_TO_BINLOG NTH_VALUE NTILE " ++
  "NULL NULLABLE NULLIF NULLS NUMERIC NVARCHAR OBJECT OCCURRENCES_REGEX OCTETS OCTET_LENGTH " ++
  "OF OFF OFFSET OFFSETS OLD OMIT ON ONE ONLY OPEN OPENJSON OPERATE OPERATOR OPTIMIZE " ++
  "OPTIMIZER_COSTS OPTION OPTIONS OR ORC ORDER ORDINALITY OUT OUTER OUTPUTFORMAT OVER " ++
  "OVERFLOW OVERLAPS OVERLAY OVERRIDE OVERWRITE OWNED OWNER OWNERSHIP PARALLEL PARAMETER " ++
  "PARQUET PART PARTITION PARTITIONED PARTITIONS PASSWORD PAST PATH PATTERN PER PERCENT " ++
  "PERCENTILE_CONT PERCENTILE_DISC PERCENT_RANK PERIOD PERMISSIVE PERSISTENT PIVOT PLACING " ++
  "PLAN PLANS POLICY PORTION POSITION POSITION_REGEX POWER PRAGMA PRECEDES PRECEDING " ++
  "PRECISION PREPARE PRESERVE PREWHERE PRIMARY PRIOR PRIVILEGES PROCEDURE PROFILE PROGRAM " ++
  "PROJECTION PUBLIC PURCHASE PURGE QUALIFY QUARTER QUERY QUOTE RANGE RANK RAW RCFILE READ " ++
  "READS READ_ONLY REAL RECLUSTER RECURSIVE REF REFERENCES REFERENCING REGCLASS REGEXP " ++
  "REGR_AVGX REGR_AVGY REGR_COUNT REGR_INTERCEPT REGR_R2 REGR_SLOPE REGR_SXX REGR_SXY " ++
  "REGR_SYY RELATIVE RELAY RELEASE RELEASES REMOTE RENAME REORG REPAIR REPEATABLE REPLACE " ++
  "REPLICA REPLICATE REPLICATION RESET RESOLVE RESPECT RESTART RESTRICT RESTRICTED " ++
  "RESTRICTIVE RESULT RESULTSET RETAIN RETURN RETURNING RETURNS REVOKE RIGHT RLIKE ROLE ROLES " ++
  "ROLLBACK ROLLUP ROOT ROW ROWID ROWS ROW_NUMBER RULE RUN SAFE_CAST SAVEPOINT SCHEMA SCHEMAS " ++
  "SCOPE SCROLL SEARCH SECOND SECRET SECURITY SELECT SEMI SENSITIVE SEPARATOR SEQUENCE " ++
  "SEQUENCEFILE SEQUENCES SERDE SERDEPROPERTIES SERIALIZABLE SESSION SESSION_USER SET SETS " ++
  "SETTINGS SHARE SHOW SIMILAR SKIP SLOW SMALLINT SNAPSHOT SOME SORT SORTED SOURCE SPATIAL " ++
  "SPECIFIC SPECIFICTYPE SQL SQLEXCEPTION SQLSTATE SQLWARNING SQRT STABLE STAGE START " ++
  "STATEMENT STATIC STATISTICS STATUS STDDEV_POP STDDEV_SAMP STDIN STDOUT STEP " ++
  "STORAGE_INTEGRATION STORAGE_SERIALIZATION_POLICY STORED STRICT STRING STRUCT SUBMULTISET " ++
  "SUBSTRING SUBSTRING_REGEX SUCCEEDS SUM SUPER SUPERUSER SUPPORT SUSPEND SWAP SYMMETRIC SYNC " ++
  "SYSTEM SYSTEM_TIME SYSTEM_USER TABLE TABLES TABLESAMPLE TAG TARGET TASK TBLPROPERTIES TEMP " ++
  "TEMPORARY TEMPTABLE TERMINATED TERSE TEXT TEXTFILE THEN TIES TIME TIMESTAMP TIMESTAMPTZ " ++
  "TIMETZ TIMEZONE TIMEZONE_ABBR TIMEZONE_HOUR TIMEZONE_MINUTE TIMEZONE_REGION TINYBLOB " ++
  "TINYINT TINYTEXT TO TOP TOTALS TRACE TRAILING TRANSACTION TRANSIENT TRANSLATE " ++
  "TRANSLATE_REGEX TRANSLATION TREAT TRIGGER TRIM TRIM_ARRAY TRUE TRUNCATE TRY TRY_CAST " ++
  "TRY_CONVERT TUPLE TYPE UESCAPE UINT128 UINT16 UINT256 UINT32 UINT64 UINT8 UNBOUNDED " ++
  "UNCACHE UNCOMMITTED UNDEFINED UNFREEZE UNION UNIQUE UNKNOWN UNLISTEN UNLOAD UNLOCK " ++
  "UNLOGGED UNMATCHED UNNEST UNPIVOT UNSAFE UNSIGNED UNTIL UPDATE UPPER URL USAGE USE USER " ++
  "USER_RESOURCES USING UUID VACUUM VALID VALIDATION_MODE VALUE VALUES VALUE_OF VARBINARY " ++
  "VARCHAR VARIABLES VARYING VAR_POP VAR_SAMP VERBOSE VERSION VERSIONING VERSIONS VIEW VIEWS " ++
  "VIRTUAL VOLATILE WAREHOUSE WAREHOUSES WEEK WHEN WHENEVER WHERE WIDTH_BUCKET WINDOW WITH " ++
  "WITHIN WITHOUT WITHOUT_ARRAY_WRAPPER WORK WRITE XML XOR YEAR ZONE ZORDER"

def all : List String :=
  (Text.splitOn (· == ' ') allText.toList).map String.ofList

/-- The keyword that a word without quotes may be, in upper case. -/
def ofWord (word : String) : String :=
  Text.upper word

/-- Keywords that cannot name a column without `AS`. -/
def notColumnAlias : List String :=
  ["WITH", "EXPLAIN", "ANALYZE", "SELECT", "WHERE", "GROUP", "SORT", "HAVING", "ORDER", "TOP",
    "LATERAL", "VIEW", "LIMIT", "OFFSET", "FETCH", "UNION", "EXCEPT", "INTERSECT", "CLUSTER",
    "DISTRIBUTE", "RETURNING", "FROM", "INTO", "END"]

/-- Keywords that cannot name a table without `AS`. -/
def notTableAlias : List String :=
  ["WITH", "EXPLAIN", "ANALYZE", "SELECT", "WHERE", "GROUP", "SORT", "HAVING", "ORDER", "PIVOT",
    "UNPIVOT", "TOP", "LATERAL", "VIEW", "LIMIT", "OFFSET", "FETCH", "UNION", "EXCEPT",
    "INTERSECT", "ON", "JOIN", "INNER", "CROSS", "FULL", "LEFT", "RIGHT", "NATURAL", "USING",
    "CLUSTER", "DISTRIBUTE", "GLOBAL", "ANTI", "SEMI", "RETURNING", "ASOF", "MATCH_CONDITION",
    "OUTER", "SET", "QUALIFY", "WINDOW", "END", "FOR", "PARTITION", "PREWHERE", "SETTINGS",
    "FORMAT", "START", "CONNECT", "MATCH_RECOGNIZE"]

/-- Keywords that name no column where the construct that they start is broken. -/
def notIdentifier : List String :=
  ["EXISTS", "INTERVAL", "STRUCT", "TRIM"]

/-- Keywords that end the list of columns of a lateral view. -/
def notLateralColumn : List String :=
  ["WHERE", "GROUP", "CLUSTER", "HAVING", "LATERAL"]

def temporalUnits : List String :=
  ["YEAR", "MONTH", "WEEK", "DAY", "HOUR", "MINUTE", "SECOND", "CENTURY", "DECADE", "DOW", "DOY",
    "EPOCH", "ISODOW", "ISOYEAR", "JULIAN", "MICROSECOND", "MICROSECONDS", "MILLENIUM",
    "MILLENNIUM", "MILLISECOND", "MILLISECONDS", "NANOSECOND", "NANOSECONDS", "QUARTER",
    "TIMEZONE", "TIMEZONE_HOUR", "TIMEZONE_MINUTE"]

def dateFields : List String :=
  temporalUnits ++
    ["DAYOFWEEK", "DAYOFYEAR", "DATE", "DATETIME", "ISOWEEK", "TIME", "TIMEZONE_ABBR",
      "TIMEZONE_REGION"]

end QueryBuild.Query.Keyword
